import ScriptLint.Proofs.Trimming
import ScriptLint.Table

/-!
# ScriptLint.Proofs.TableColumns

The columns of a table line up. Lines are trimmed at their ends, but filled up again they are as
long as the separator, and every cell and every bar stands where the separator says.

* `Table.offset`, `Text.slice`: where a column starts, and what stands there
* `exists_column`, `slice_column`: texts put next to each other are found at their offsets
* `slice_separatorLine`, `exists_joint`: the separator has its crosses between the columns
* `fill_rowLine`: a trimmed line, filled up again
* `Table.Aligned`: a line whose cells stand in the columns
* `lines_aligned`: the lines of a table
-/

namespace ScriptLint

open Digits Text

/-- The characters of a text from a place on. -/
def Text.slice (start size : Nat) (cs : List Char) : List Char := (cs.drop start).take size

theorem Text.slice_append {start size : Nat} {front part : List Char}
    (hfront : front.length = start) (hpart : part.length = size) (back : List Char) :
    slice start size (front ++ (part ++ back)) = part := by
  rw [slice, ← hfront, List.drop_left, ← hpart, List.take_left]

theorem Digits.length_padRight {fill : Char} {size : Nat} {cs : List Char} (h : cs.length ≤ size) :
    (padRight fill size cs).length = size := by
  rw [padRight, List.length_append, List.length_replicate]
  omega

namespace Table

/-- Where a column starts: behind the columns before it, with three characters behind each. -/
def offset : List Nat → Nat → Nat
  | w :: widths, j + 1 => w + 3 + offset widths j
  | _, _ => 0

theorem offset_cons (w : Nat) (widths : List Nat) (j : Nat) :
    offset (w :: widths) (j + 1) = w + 3 + offset widths j := rfl

section Joined

variable {gap gap' : List Char}

theorem intercalate_cons {blocks : List (List Char)} (b : List Char) (h : blocks ≠ []) :
    gap.intercalate (b :: blocks) = b ++ (gap ++ gap.intercalate blocks) := by
  cases blocks with
  | nil => exact absurd rfl h
  | cons c blocks => rw [List.intercalate_cons_cons, List.append_assoc]

/-- A text that is put next to others stands at its offset, and the gap behind it if it is not the
last one. -/
theorem exists_column (hgap : gap.length = 3) {blocks : List (List Char)} :
    ∀ {j : Nat} {b : List Char}, blocks[j]? = some b → ∃ front back,
      gap.intercalate blocks = front ++ (b ++ back) ∧
      front.length = offset (blocks.map List.length) j ∧
      (j + 1 < blocks.length → ∃ more, back = gap ++ more) := by
  induction blocks with
  | nil =>
    intro j b h
    cases h
  | cons c blocks ih =>
    intro j b h
    cases j with
    | zero =>
      obtain rfl : c = b := Option.some.inj h
      by_cases hlast : blocks = []
      · subst hlast
        exact ⟨[], [], by simp, rfl, fun hlt => absurd hlt (Nat.lt_irrefl 1)⟩
      · exact ⟨[], gap ++ gap.intercalate blocks, intercalate_cons c hlast, rfl, fun _ => ⟨_, rfl⟩⟩
    | succ j =>
      obtain ⟨front, back, hsplit, hfront, hgapped⟩ := ih h
      have hsome : blocks ≠ [] := by
        rintro rfl
        cases h
      refine ⟨c ++ (gap ++ front), back, ?_, ?_, fun hlt => hgapped (Nat.lt_of_succ_lt_succ hlt)⟩
      · rw [intercalate_cons c hsome, hsplit, List.append_assoc, List.append_assoc]
      · rw [List.map_cons, offset_cons, List.length_append, List.length_append, hgap, hfront]
        omega

/-- What stands under a column of a joined text, and behind it. -/
theorem slice_column (hgap : gap.length = 3) {blocks : List (List Char)} {widths : List Nat}
    (hwidths : blocks.map List.length = widths) {j w : Nat} (hw : widths[j]? = some w) :
    (∀ b, blocks[j]? = some b → slice (offset widths j) w (gap.intercalate blocks) = b) ∧
    (j + 1 < widths.length → slice (offset widths j + w) 3 (gap.intercalate blocks) = gap) := by
  subst hwidths
  rw [List.getElem?_map, Option.map_eq_some_iff] at hw
  obtain ⟨b, hb, rfl⟩ := hw
  obtain ⟨front, back, hsplit, hfront, hgapped⟩ := exists_column hgap hb
  constructor
  · intro b' hb'
    rw [hb] at hb'
    cases hb'
    rw [hsplit]
    exact slice_append hfront rfl back
  · intro hj
    rw [List.length_map] at hj
    obtain ⟨more, rfl⟩ := hgapped hj
    rw [hsplit, ← List.append_assoc]
    exact slice_append (by rw [List.length_append, hfront]) hgap more

theorem length_intercalate (hgap : gap.length = gap'.length) {blocks : List (List Char)} :
    ∀ {blocks' : List (List Char)}, blocks.map List.length = blocks'.map List.length →
      (gap.intercalate blocks).length = (gap'.intercalate blocks').length := by
  induction blocks with
  | nil =>
    intro blocks' h
    rw [List.map_eq_nil_iff.1 h.symm]
    rfl
  | cons b blocks ih =>
    intro blocks' h
    cases blocks' with
    | nil => cases h
    | cons b' blocks' =>
      obtain ⟨hb, hblocks⟩ := List.cons.inj h
      by_cases hlast : blocks = []
      · subst hlast
        rw [List.map_eq_nil_iff.1 hblocks.symm]
        simpa using hb
      · have hlast' : blocks' ≠ [] := by
          rintro rfl
          exact hlast (List.map_eq_nil_iff.1 hblocks)
        rw [intercalate_cons b hlast, intercalate_cons b' hlast']
        simp only [List.length_append, hb, hgap, ih hblocks]

end Joined

section Separator

theorem toList_separatorLine (widths : List Nat) :
    (separatorLine widths).toList =
      "-+-".toList.intercalate (widths.map fun w => List.replicate w '-') := by
  rw [separatorLine, String.toList_intercalate, List.map_map]
  congr 1
  exact List.map_congr_left fun w _ => String.toList_ofList

theorem map_length_dashes (widths : List Nat) :
    (widths.map fun w => List.replicate w '-').map List.length = widths := by
  rw [List.map_map]
  exact (List.map_congr_left fun w _ => List.length_replicate).trans (List.map_id widths)

/-- The separator has dashes under every column, and a cross between two of them. -/
theorem slice_separatorLine {widths : List Nat} {j w : Nat} (hw : widths[j]? = some w) :
    slice (offset widths j) w (separatorLine widths).toList = List.replicate w '-' ∧
    (j + 1 < widths.length →
      slice (offset widths j + w) 3 (separatorLine widths).toList = "-+-".toList) := by
  have hgap : "-+-".toList.length = 3 := rfl
  obtain ⟨hunder, hbehind⟩ := slice_column hgap (map_length_dashes widths) hw
  rw [toList_separatorLine]
  refine ⟨hunder _ ?_, hbehind⟩
  rw [List.getElem?_map, hw]
  rfl

/-- A cross of the separator stands between two columns. -/
theorem exists_joint {widths : List Nat} : ∀ {place : Nat},
    ("-+-".toList.intercalate (widths.map fun w => List.replicate w '-'))[place]? = some '+' →
    ∃ j w, widths[j]? = some w ∧ j + 1 < widths.length ∧ place = offset widths j + (w + 1) := by
  have hdash : ∀ w place : Nat, (List.replicate w '-')[place]? ≠ some '+' := by
    intro w place h
    obtain ⟨_, hc⟩ := List.mem_replicate.1 (List.mem_of_getElem? h)
    revert hc
    decide
  induction widths with
  | nil =>
    intro place h
    cases h
  | cons w widths ih =>
    intro place h
    by_cases hlast : widths = []
    · subst hlast
      exact absurd h (by simpa using hdash w place)
    · have hsome : widths.map (fun w => List.replicate w '-') ≠ [] := by simpa using hlast
      rw [List.map_cons, intercalate_cons _ hsome, List.getElem?_append] at h
      split at h
      · exact absurd h (hdash w place)
      · rename_i hplace
        rw [List.length_replicate] at h hplace
        obtain ⟨back, rfl⟩ := Nat.exists_eq_add_of_le (Nat.le_of_not_lt hplace)
        rw [Nat.add_sub_cancel_left] at h
        -- the cross is the second of the three characters behind the column
        match back, h with
        | 0, h => cases h
        | 1, _ =>
          refine ⟨0, w, rfl, ?_, (Nat.zero_add _).symm⟩
          exact Nat.succ_lt_succ (List.length_pos_iff.2 hlast)
        | 2, h => cases h
        | back + 3, h =>
          obtain ⟨j, w', hw', hj, rfl⟩ := ih h
          refine ⟨j + 1, w', hw', Nat.succ_lt_succ hj, ?_⟩
          rw [offset_cons]
          omega

end Separator

section Lines

/-- The text of a line does not end in white space. -/
def EndsBare (cs : List Char) : Prop := cs.getLast?.any isSpace = false

/-- Cells that do not end in white space: nothing but blanks is behind the last one of them that
shows anything, or behind the last bar. -/
theorem exists_blanks {cells : List (List Char × Nat)} (h : ∀ e ∈ cells, EndsBare e.1) :
    ∃ body k, " | ".toList.intercalate (cells.map fun e => padRight ' ' e.2 e.1) =
      body ++ List.replicate k ' ' ∧ EndsBare body := by
  induction cells with
  | nil => exact ⟨[], 0, rfl, rfl⟩
  | cons e cells ih =>
    by_cases hlast : cells = []
    · subst hlast
      exact ⟨e.1, e.2 - e.1.length, by simp [padRight], h e List.mem_cons_self⟩
    · obtain ⟨body, k, hsplit, hbody⟩ := ih fun e he => h e (List.mem_cons_of_mem _ he)
      have hsome : cells.map (fun e => padRight ' ' e.2 e.1) ≠ [] := by simpa using hlast
      rw [List.map_cons, intercalate_cons _ hsome, hsplit]
      by_cases hempty : body = []
      · subst hempty
        refine ⟨padRight ' ' e.2 e.1 ++ " |".toList, k + 1, ?_, ?_⟩
        · rw [List.append_assoc, List.replicate_succ]
          rfl
        · rw [EndsBare, List.getLast?_append]
          rfl
      · refine ⟨padRight ' ' e.2 e.1 ++ (" | ".toList ++ body), k, by simp, ?_⟩
        rw [EndsBare, List.getLast?_append, List.getLast?_append]
        cases hend : body.getLast? with
        | none => exact absurd (List.getLast?_eq_none_iff.1 hend) hempty
        | some c =>
          rw [EndsBare, hend] at hbody
          exact hbody

/-- A line filled up with blanks to the length of the separator. -/
def fill (widths : List Nat) (line : String) : List Char :=
  padRight ' ' (separatorLine widths).length line.toList

variable {widths : List Nat} {texts : List String}

/-- The texts of a line fit their columns and do not end in white space. -/
structure Fits (widths : List Nat) (texts : List String) : Prop where
  columns : texts.length = widths.length
  widths : ∀ e ∈ texts.zip widths, e.1.length ≤ e.2
  bare : ∀ text ∈ texts, EndsBare text.toList

/-- The cells of a line, each as wide as its column. -/
def blocks (widths : List Nat) (texts : List String) : List (List Char) :=
  (texts.zip widths).map fun e => padRight ' ' e.2 e.1.toList

theorem Fits.map_length_blocks (h : Fits widths texts) :
    (blocks widths texts).map List.length = widths := by
  have hlengths : ∀ e ∈ texts.zip widths, (padRight ' ' e.2 e.1.toList).length = e.2 :=
    fun e he => length_padRight (h.widths e he)
  rw [blocks, List.map_map]
  exact (List.map_congr_left hlengths).trans (List.map_snd_zip (Nat.le_of_eq h.columns.symm))

theorem toList_joinCells (cells : List (String × Nat)) :
    (joinCells cells).toList =
      " | ".toList.intercalate (cells.map fun e => padRight ' ' e.2 e.1.toList) := by
  rw [joinCells, String.toList_intercalate, List.map_map]
  congr 1
  exact List.map_congr_left fun e _ => String.toList_ofList

theorem length_separatorLine (h : Fits widths texts) :
    (separatorLine widths).length = (" | ".toList.intercalate (blocks widths texts)).length := by
  have hgap : "-+-".toList.length = " | ".toList.length := rfl
  rw [← String.length_toList, toList_separatorLine]
  refine length_intercalate hgap ?_
  rw [h.map_length_blocks, map_length_dashes]

/-- Trimming takes only blanks off a line, which it gets back when it is filled up. -/
theorem fill_rowLine (h : Fits widths texts) :
    fill widths (rowLine widths texts) = " | ".toList.intercalate (blocks widths texts) := by
  have hcells : ∀ e ∈ (texts.zip widths).map (fun e => (e.1.toList, e.2)), EndsBare e.1 := by
    refine List.forall_mem_map.2 fun e he => h.bare e.1 (List.of_mem_zip he).1
  obtain ⟨body, k, hsplit, hbody⟩ := exists_blanks hcells
  rw [List.map_map] at hsplit
  have hblocks : " | ".toList.intercalate (blocks widths texts) = body ++ List.replicate k ' ' :=
    hsplit
  have hline : (rowLine widths texts).toList = body := by
    rw [rowLine, trimLine, String.toList_ofList, toList_joinCells, ← blocks, hblocks,
      trimEnd_append, trimEnd_eq_self hbody]
    intro c hc
    rw [(List.mem_replicate.1 hc).2]
    decide
  rw [fill, hline, length_separatorLine h, hblocks, padRight, List.length_append,
    List.length_replicate, Nat.add_sub_cancel_left]

/-- A line whose cells stand in the columns: filled up it is as long as the separator, where the
separator has a cross between dashes it has a bar between blanks, and under every column there is
the text of the cell, filled up to the width of the column. -/
structure Aligned (widths : List Nat) (texts : List String) (line : String) : Prop where
  length : (fill widths line).length = (separatorLine widths).length
  bars : ∀ place, slice place 3 (separatorLine widths).toList = "-+-".toList →
    slice place 3 (fill widths line) = " | ".toList
  cells : ∀ j w text, widths[j]? = some w → texts[j]? = some text →
    slice (offset widths j) w (fill widths line) = padRight ' ' w text.toList

theorem aligned_rowLine (h : Fits widths texts) : Aligned widths texts (rowLine widths texts) where
  length := by rw [fill_rowLine h, length_separatorLine h]
  bars := by
    intro place hplace
    have hcross : (separatorLine widths).toList[place + 1]? = some '+' := by
      have hsecond : (slice place 3 (separatorLine widths).toList)[1]? = some '+' := by
        rw [hplace]
        rfl
      rw [slice, List.getElem?_take, if_pos (by decide), List.getElem?_drop] at hsecond
      exact hsecond
    rw [toList_separatorLine] at hcross
    obtain ⟨j, w, hw, hj, heq⟩ := exists_joint hcross
    obtain rfl : place = offset widths j + w := Nat.succ.inj heq
    rw [fill_rowLine h]
    exact (slice_column rfl h.map_length_blocks hw).2 hj
  cells := by
    intro j w text hw htext
    have hzip : (texts.zip widths)[j]? = some (text, w) :=
      List.getElem?_zip_eq_some.2 ⟨htext, hw⟩
    have hblock : (blocks widths texts)[j]? = some (padRight ' ' w text.toList) := by
      rw [blocks, List.getElem?_map, hzip]
      rfl
    rw [fill_rowLine h]
    exact (slice_column rfl h.map_length_blocks hw).1 _ hblock

end Lines

section Rows

variable {rows : List Row} {headers : List String}

theorem le_foldl_max (sizes : List Nat) : ∀ first : Nat,
    first ≤ sizes.foldl max first ∧ ∀ n ∈ sizes, n ≤ sizes.foldl max first := by
  induction sizes with
  | nil => exact fun first => ⟨Nat.le_refl first, by simp⟩
  | cons n sizes ih =>
    intro first
    obtain ⟨hfirst, hsizes⟩ := ih (max first n)
    rw [List.foldl_cons]
    refine ⟨Nat.le_trans (Nat.le_max_left first n) hfirst, ?_⟩
    exact List.forall_mem_cons.2 ⟨Nat.le_trans (Nat.le_max_right first n) hfirst, hsizes⟩

theorem length_header_le (rows : List Row) (header : String) : header.length ≤ width rows header :=
  (le_foldl_max _ _).1

theorem length_cell_le {r : Row} (hr : r ∈ rows) (header : String) :
    (cell r header).length ≤ width rows header :=
  (le_foldl_max _ _).2 _ (List.mem_map_of_mem hr)

/-- The texts of a line that come from the headers one by one. -/
theorem fits_headers (text : String → String)
    (hwidth : ∀ header ∈ headers, (text header).length ≤ width rows header)
    (hbare : ∀ header ∈ headers, EndsBare (text header).toList) :
    Fits (headers.map (width rows)) (headers.map text) where
  columns := by rw [List.length_map, List.length_map]
  widths := by
    rw [List.zip_map']
    exact List.forall_mem_map.2 hwidth
  bare := List.forall_mem_map.2 hbare

/-- The lines of a table whose headers and cells do not end in white space. Behind the header and
the separator there is a line for each row, in order, and all these lines stand in the columns that
the separator shows, which has dashes under every column and a cross between two of them. All lines
are as long as the separator when they are filled up. -/
theorem lines_aligned (hrows : rows ≠ []) (hheaders : ∀ header ∈ headers, EndsBare header.toList)
    (hcells : ∀ r ∈ rows, ∀ header ∈ headers, EndsBare (cell r header).toList) :
    let widths := headers.map (width rows)
    (∀ line ∈ lines rows headers, (fill widths line).length = (separatorLine widths).length) ∧
    (∀ (j : Nat) w, widths[j]? = some w →
      slice (offset widths j) w (separatorLine widths).toList = List.replicate w '-' ∧
      (j + 1 < widths.length →
        slice (offset widths j + w) 3 (separatorLine widths).toList = "-+-".toList)) ∧
    ∃ header body, lines rows headers = header :: separatorLine widths :: body ∧
      Aligned widths headers header ∧ body.length = rows.length ∧
      ∀ (i : Nat) r line, rows[i]? = some r → body[i]? = some line →
        Aligned widths (headers.map (cell r)) line := by
  intro widths
  have hheader : Aligned widths headers (rowLine widths headers) := by
    have hfits := fits_headers id (fun h _ => length_header_le rows h) hheaders
    rw [List.map_id] at hfits
    exact aligned_rowLine hfits
  have hrow : ∀ r ∈ rows, Aligned widths (headers.map (cell r))
      (rowLine widths (headers.map (cell r))) := fun r hr =>
    aligned_rowLine (fits_headers (cell r) (fun h _ => length_cell_le hr h) (hcells r hr))
  have hlines : lines rows headers = rowLine widths headers :: separatorLine widths ::
      rows.map fun r => rowLine widths (headers.map (cell r)) := by
    rw [lines, if_neg (by simpa using hrows)]
  refine ⟨?_, fun j w => slice_separatorLine, _, _, hlines, hheader, List.length_map _, ?_⟩
  · intro line hline
    rw [hlines, List.mem_cons, List.mem_cons, List.mem_map] at hline
    obtain rfl | rfl | ⟨r, hr, rfl⟩ := hline
    · exact hheader.length
    · exact length_padRight (Nat.le_of_eq String.length_toList)
    · exact (hrow r hr).length
  · intro i r line hr hline
    rw [List.getElem?_map, hr] at hline
    cases hline
    exact hrow r (List.mem_of_getElem? hr)

/-- A table with cells that are missing, empty or not there at the end of a row. -/
def gappyRows : List Row :=
  [[(.str "option", .str "asi"), (.str "note", .str "")], [(.str "value", .list [.str "x"])],
    [(.str "note", .bool true), (.str "option", .int 12)]]

def gappyHeaders : List String := ["option", "value", "note"]

theorem lines_aligned_gappy :
    gappyRows ≠ [] ∧ (∀ header ∈ gappyHeaders, EndsBare header.toList) ∧
    (∀ r ∈ gappyRows, ∀ header ∈ gappyHeaders, EndsBare (cell r header).toList) ∧
    lines gappyRows gappyHeaders =
      ["option | value | note", "-------+-------+-----", "asi    |       |", "       | [\"x\"] |",
        "12     |       | true"] ∧
    ∀ line ∈ lines gappyRows gappyHeaders,
      (fill (gappyHeaders.map (width gappyRows)) line).length = 21 := by
  have hrows : gappyRows ≠ [] := List.cons_ne_nil _ _
  have hheaders : ∀ header ∈ gappyHeaders, EndsBare header.toList := by
    simp only [gappyHeaders, List.forall_mem_cons]
    exact ⟨rfl, rfl, rfl, by simp⟩
  have hcells : ∀ r ∈ gappyRows, ∀ header ∈ gappyHeaders, EndsBare (cell r header).toList := by
    simp only [gappyRows, gappyHeaders, List.forall_mem_cons]
    exact ⟨⟨rfl, rfl, rfl, by simp⟩, ⟨rfl, rfl, rfl, by simp⟩, ⟨rfl, rfl, rfl, by simp⟩, by simp⟩
  obtain ⟨hlength, _⟩ := lines_aligned hrows hheaders hcells
  exact ⟨hrows, hheaders, hcells, by decide +kernel, hlength⟩

end Rows

end Table

end ScriptLint
