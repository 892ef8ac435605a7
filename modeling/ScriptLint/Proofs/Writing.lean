import ScriptLint.Proofs.Mappings
import ScriptLint.Proofs.NumberTexts

/-!
# ScriptLint.Proofs.Writing

What is written as a document reads as this document, in every style and by either reader, and so
does what a script writes.

* `Json.reread`: what a reader makes of the written form of a document
* `Json.readAs_write`: the forms the library writes
* `Datum.document`: the document of a value, with its numbers as they are spelled
* `Datum.read_stringify`: what a script writes
-/

namespace ScriptLint

namespace Json

open Digits

mutual

/-- What a reader makes of the written form of a document: the first number that it refuses, else
the document with its numbers as they are spelled. -/
def reread (d : Dialect) : Json → Except ReadError Json
  | .null => .ok .null
  | .bool b => .ok (.bool b)
  | .int i =>
    if d.refusesDigits (decimal i.natAbs).length then
      .error (.tooManyDigits (decimal i.natAbs).length)
    else .ok (.int i)
  | .float x => x.reread d
  | .str s => .ok (.str s)
  | .arr xs => (rereadItems d xs).map .arr
  | .obj fs => (rereadFields d fs).map fun fs => .obj (Mapping.ofPairs fs)

def rereadItems (d : Dialect) : List Json → Except ReadError (List Json)
  | [] => .ok []
  | x :: xs => (reread d x).bind fun j => (rereadItems d xs).map (j :: ·)

def rereadFields (d : Dialect) : List (String × Json) → Except ReadError (Mapping Json)
  | [] => .ok []
  | (n, x) :: fs => (reread d x).bind fun j => (rereadFields d fs).map ((n, j) :: ·)

end

variable {d : Dialect}

theorem ofInt_signed (i : Int) : Digits.ofInt i = signed (decide (i < 0)) (decimal i.natAbs) := by
  simp only [Digits.ofInt, signed, decide_eq_true_eq]

theorem wholeNumber_decimal (i : Int) :
    wholeNumber (decide (i < 0)) (decimal i.natAbs) = .int i := by
  simp only [wholeNumber, value_decimal, decide_eq_true_eq]
  congr 1
  split <;> omega

theorem reads_ofInt (i : Int) :
    Reads d (Digits.ofInt i)
      (if d.refusesDigits (decimal i.natAbs).length then
        .error (.tooManyDigits (decimal i.natAbs).length)
      else .ok (.int i)) := by
  have h : Reads d (signed (decide (i < 0)) (decimal i.natAbs ++ []))
      (if d.refusesDigits (decimal i.natAbs).length then
        .error (.tooManyDigits (decimal i.natAbs).length)
      else .ok (.int i)) := by
    refine Reads.number (decimal_whole _) ?_
    intro start rest hrest
    rw [List.nil_append, readNumber_whole d start _ (decimal_whole _) hrest, wholeNumber_decimal]
    split
    · rfl
    · rfl
  rwa [List.append_nil, ← ofInt_signed] at h

theorem reads_bool (b : Bool) :
    Reads d (if b then "true".toList else "false".toList) (.ok (.bool b)) := by
  cases b with
  | false => exact Reads.false
  | true => exact Reads.true

theorem gap_newline (st : Style) (level : Nat) : Gap (st.newline level) := by
  intro c hc
  rw [Style.newline] at hc
  split at hc
  · rcases List.mem_cons.1 hc with rfl | hc
    · rfl
    · rw [List.eq_of_mem_replicate hc]
      rfl
  · cases hc

theorem separator_gap (st : Style) (level : Nat) :
    ∃ g, Gap g ∧ st.separator level = ',' :: g := by
  rw [Style.separator]
  split
  · exact ⟨st.newline level, gap_newline st level, rfl⟩
  · refine ⟨[' '], ?_, rfl⟩
    intro c hc
    rw [List.mem_singleton.1 hc]
    rfl

theorem gap_space : Gap [' '] := by
  intro c hc
  rw [List.mem_singleton.1 hc]
  rfl

theorem map_one {α β : Type} (r : Except ReadError α) (f : α → β) :
    (r.map fun j => [f j]) = r.bind fun j => (Except.ok []).map (f j :: ·) := by
  cases r with
  | ok j => rfl
  | error e => rfl

mutual

/-- The written form of a document is read back, whatever the style. -/
theorem reads_write (st : Style) : ∀ (j : Json) (level : Nat),
    Reads d (write st level j) (reread d j)
  | .null, level => by
    rw [write, reread]
    exact Reads.null
  | .bool b, level => by
    rw [write, reread]
    exact reads_bool b
  | .int i, level => by
    rw [write, reread]
    exact reads_ofInt i
  | .float x, level => by
    rw [write, reread]
    exact Binary64.reads_writeNumber d x
  | .str s, level => by
    rw [write, reread]
    exact Reads.str st.ascii s
  | .arr [], level => by
    rw [write, reread, rereadItems]
    exact Reads.arr_nil
  | .arr (x :: xs), level => by
    have hitems := readsItems_write st xs (level + 1) (reads_write st x (level + 1))
      (gap_newline st level)
    have h := Reads.arr (gap_newline st (level + 1)) hitems
    rw [write, reread, rereadItems]
    simpa only [List.cons_append, List.append_assoc] using h
  | .obj [], level => by
    rw [write, reread, rereadFields]
    exact Reads.obj_nil
  | .obj ((n, x) :: fs), level => by
    have hfields := readsFields_write st fs (level + 1) n (reads_write st x (level + 1))
      (gap_newline st level)
    have h := Reads.obj (gap_newline st (level + 1)) hfields
    rw [write, reread, rereadFields]
    simpa only [List.cons_append, List.append_assoc, List.nil_append] using h

/-- Items behind one that is read, up to the white space `g`. -/
theorem readsItems_write (st : Style) : ∀ (xs : List Json) (level : Nat) {x g : List Char}
    {r : Except ReadError Json}, Reads d x r → Gap g →
    ReadsItems d (x ++ (writeItems st level xs ++ g))
      (r.bind fun j => (rereadItems d xs).map (j :: ·))
  | [], level, x, g, r, hx, hg => by
    rw [writeItems, rereadItems, List.nil_append, ← map_one r fun j => j]
    exact ReadsItems.one hx hg
  | y :: ys, level, x, g, r, hx, hg => by
    obtain ⟨g', hg', hsep⟩ := separator_gap st level
    have hitems := readsItems_write st ys level (reads_write st y level) hg
    have h := ReadsItems.more hx gap_nil hg' hitems
    rw [writeItems, rereadItems, hsep]
    simpa only [List.cons_append, List.append_assoc, List.nil_append] using h

/-- Fields behind the name and the value of one that is read, up to the white space `g`. -/
theorem readsFields_write (st : Style) : ∀ (fs : List (String × Json)) (level : Nat) (n : String)
    {x g : List Char} {r : Except ReadError Json}, Reads d x r → Gap g →
    ReadsFields d (writeString st.ascii n ++ (':' :: ([' '] ++ (x ++ (writeFields st level fs ++ g)))))
      (r.bind fun j => (rereadFields d fs).map ((n, j) :: ·))
  | [], level, n, x, g, r, hx, hg => by
    rw [writeFields, rereadFields, List.nil_append, ← map_one r fun j => (n, j)]
    exact ReadsFields.one st.ascii n gap_space hx hg
  | (m, y) :: fs, level, n, x, g, r, hx, hg => by
    obtain ⟨g', hg', hsep⟩ := separator_gap st level
    have hfields := readsFields_write st fs level m (reads_write st y level) hg
    have h := ReadsFields.more st.ascii n gap_space hx gap_nil hg' hfields
    rw [writeFields, rereadFields, hsep]
    simpa only [List.cons_append, List.append_assoc, List.nil_append] using h

end

theorem reread_arr {xs : List Json} (h : ∀ x ∈ xs, reread d x = .ok x) :
    reread d (.arr xs) = .ok (.arr xs) := by
  have hitems : rereadItems d xs = .ok xs := by
    induction xs with
    | nil => rfl
    | cons x xs ih =>
      rw [rereadItems, h x List.mem_cons_self, ih fun y hy => h y (List.mem_cons_of_mem _ hy)]
      rfl
  rw [reread, hitems]
  rfl

theorem reread_obj {fs : Mapping Json} (hnames : (Mapping.keys fs).Nodup)
    (h : ∀ e ∈ fs, reread d e.2 = .ok e.2) : reread d (.obj fs) = .ok (.obj fs) := by
  have hfields : rereadFields d fs = .ok fs := by
    clear hnames
    induction fs with
    | nil => rfl
    | cons e fs ih =>
      rw [rereadFields, h e List.mem_cons_self, ih fun y hy => h y (List.mem_cons_of_mem _ hy)]
      rfl
  rw [reread, hfields]
  exact congrArg (fun fs => Except.ok (Json.obj fs)) (Mapping.ofPairs_nodup hnames)

/-- Reading what was written. -/
theorem readAs_write (d : Dialect) (st : Style) (level : Nat) (j : Json) :
    readAs d (String.ofList (write st level j)) = reread d j :=
  (reads_write st j level).readAs_eq

end Json

namespace Datum

open Digits Json

mutual

/-- The document of a value, with its numbers as a script spells them. -/
def document : Datum → Json
  | .null => .null
  | .bool b => .bool b
  | .whole i => .int i
  | .real x => x.scriptDocument
  | .str s => .str s
  | .arr xs => .arr (documents xs)
  | .obj ps => .obj (Mapping.ofPairs (fieldDocuments ps))

def documents : List Datum → List Json
  | [] => []
  | x :: xs => document x :: documents xs

def fieldDocuments : List (String × Datum) → Mapping Json
  | [] => []
  | (n, x) :: ps => (n, document x) :: fieldDocuments ps

end

theorem documents_eq_map (xs : List Datum) : documents xs = xs.map document := by
  induction xs with
  | nil => rfl
  | cons x xs ih => rw [documents, ih, List.map_cons]

theorem fieldDocuments_eq_map (ps : List (String × Datum)) :
    fieldDocuments ps = ps.map fun e => (e.1, e.2.document) := by
  induction ps with
  | nil => rfl
  | cons e ps ih => rw [fieldDocuments, ih, List.map_cons]

mutual

/-- The library's reader takes every integer in a value. -/
def Fits : Datum → Prop
  | .whole i => (decimal i.natAbs).length ≤ limit
  | .arr xs => AllFit xs
  | .obj ps => FieldsFit ps
  | _ => True

def AllFit : List Datum → Prop
  | [] => True
  | x :: xs => Fits x ∧ AllFit xs

def FieldsFit : List (String × Datum) → Prop
  | [] => True
  | (_, x) :: ps => Fits x ∧ FieldsFit ps

end

theorem allFit_iff (xs : List Datum) : AllFit xs ↔ ∀ x ∈ xs, x.Fits := by
  induction xs with
  | nil => simp [AllFit]
  | cons x xs ih => simp [AllFit, ih]

theorem fieldsFit_iff (ps : List (String × Datum)) : FieldsFit ps ↔ ∀ e ∈ ps, e.2.Fits := by
  induction ps with
  | nil => simp [FieldsFit]
  | cons e ps ih => simp [FieldsFit, ih]

theorem length_exact {i : Int} (h : i.natAbs ≤ exactLimit) :
    (decimal i.natAbs).length ≤ limit := by
  have hlt : i.natAbs < 10 ^ 16 := Nat.lt_of_le_of_lt h (by decide)
  have hlen := length_decimal_le (by decide) hlt
  exact Nat.le_trans hlen (by decide)

mutual

/-- What a script writes is read by the library. -/
theorem reads_write : ∀ x : Datum, x.Fits → Reads .host x.write (.ok x.document)
  | .null, _ => by
    rw [write, document]
    exact Reads.null
  | .bool b, _ => by
    rw [write, document]
    exact reads_bool b
  | .whole i, h => by
    have hfit : Dialect.host.refusesDigits (decimal i.natAbs).length = false := by
      rw [Fits] at h
      simp only [Dialect.refusesDigits, Dialect.host, Option.any_some, decide_eq_false_iff_not]
      omega
    have hread := reads_ofInt (d := .host) i
    rw [hfit] at hread
    rw [write, document]
    exact hread
  | .real x, _ => by
    rw [write, document]
    split
    · rename_i hx
      exact Binary64.reads_numberText hx
    · rename_i hx
      cases x with
      | nan => exact Reads.null
      | infinite negative => exact Reads.null
      | finite negative m e => exact absurd rfl hx
  | .str s, _ => by
    rw [write, document]
    exact Reads.str false s
  | .arr [], _ => by
    rw [write, document, documents, writeItems]
    exact Reads.arr_nil
  | .arr (x :: xs), h => by
    rw [Fits] at h
    have hread := Reads.arr gap_nil (readsItems_write (x :: xs) (List.cons_ne_nil x xs) h)
    rw [write, document]
    simpa only [List.cons_append, List.nil_append, Except.map] using hread
  | .obj [], _ => by
    rw [write, document, fieldDocuments, writeProps]
    exact Reads.obj_nil
  | .obj ((n, x) :: ps), h => by
    rw [Fits] at h
    have hread := Reads.obj gap_nil (readsFields_write ((n, x) :: ps) (List.cons_ne_nil _ _) h)
    rw [write, document]
    simpa only [List.cons_append, List.nil_append, Except.map] using hread

theorem readsItems_write : ∀ xs : List Datum, xs ≠ [] → AllFit xs →
    ReadsItems .host (writeItems xs) (.ok (documents xs))
  | [], hne, _ => absurd rfl hne
  | [x], _, h => by
    rw [AllFit] at h
    have hread := ReadsItems.one (reads_write x h.1) gap_nil
    rw [List.append_nil] at hread
    rw [writeItems, documents, documents]
    exact hread
  | x :: y :: ys, _, h => by
    rw [AllFit] at h
    have hmore := readsItems_write (y :: ys) (List.cons_ne_nil y ys) h.2
    have hread := ReadsItems.more (reads_write x h.1) gap_nil gap_nil hmore
    rw [writeItems, documents]
    · exact hread
    · simp

theorem readsFields_write : ∀ ps : List (String × Datum), ps ≠ [] → FieldsFit ps →
    ReadsFields .host (writeProps ps) (.ok (fieldDocuments ps))
  | [], hne, _ => absurd rfl hne
  | [(n, x)], _, h => by
    rw [FieldsFit] at h
    have hread := ReadsFields.one false n gap_nil (reads_write x h.1) gap_nil
    rw [List.append_nil] at hread
    rw [writeProps, fieldDocuments, fieldDocuments]
    exact hread
  | (n, x) :: q :: ps, _, h => by
    rw [FieldsFit] at h
    have hmore := readsFields_write (q :: ps) (List.cons_ne_nil q ps) h.2
    have hread := ReadsFields.more false n gap_nil (reads_write x h.1) gap_nil gap_nil hmore
    rw [writeProps, fieldDocuments]
    · simpa only [List.cons_append, List.append_assoc, List.nil_append, Except.map, Except.bind]
        using hread
    · simp

end

/-- The library reads what a script writes as the document of the value. -/
theorem read_stringify {x : Datum} (h : x.Fits) : Json.read x.stringify = .ok x.document :=
  (reads_write x h).readAs_eq

end Datum

end ScriptLint
