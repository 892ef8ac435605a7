import ScriptLint.Proofs.Batches

/-!
# ScriptLint.Proofs.Outputs

What a command has to say once it is carried out. Rows of values are a table or a document, and both
are there exactly if the values are written.

* `Table.stringify_eq`: the text of a cell
* `Table.render_rows`, `Table.render_unwritten`: rows that are rendered, and rows that are not
* `Cli.optionsOutput_ok`, `Cli.optionsOutput_unwritten`: options of a checker
* `Cli.enginesOutput_ok`: scripts that are installed
* `Cli.reportsOutput_ok`: reports whose positions can be shown
-/

namespace ScriptLint

namespace Table

/-- A cell has a text exactly if its value is written. -/
theorem stringify_eq (v : Value) :
    stringify v = if v.isWritable then .ok (cellText v) else .error .unwritable := by
  have hencoded : v.encode = if v.isWritable then .ok (v.encode.toOption.getD "")
      else .error .unwritable := by
    rw [Value.encode_eq]
    cases v.isWritable <;> rfl
  cases v with
  | int i =>
    rw [Value.isWritable_int]
    cases hwritten : Digits.isWritable i <;> simp [cellText, stringify, hwritten, Except.toOption]
  | list xs => exact hencoded
  | tuple xs => exact hencoded
  | dict es => exact hencoded
  | path p => exact hencoded
  | moment m => exact hencoded
  | _ => rfl

/-- All values of a row are written. -/
def RowWritten (r : Row) : Prop := ∀ e ∈ r, e.2.isWritable = true

theorem isWritable_valueAt {r : Row} (h : RowWritten r) (header : String) :
    (valueAt header r).isWritable = true := by
  induction r with
  | nil => rfl
  | cons e r ih =>
    obtain ⟨k, v⟩ := e
    rw [valueAt]
    split
    · exact h (k, v) List.mem_cons_self
    · exact ih fun e he => h e (List.mem_cons_of_mem _ he)

/-- A column has no lines exactly if one of its cells has no text. -/
theorem columnFault?_eq (header : String) (rows : List Row) :
    columnFault? header rows =
      if rows.all fun r => (valueAt header r).isWritable then none else some .unwritable := by
  induction rows with
  | nil => rfl
  | cons r rows ih =>
    rw [columnFault?, stringify_eq, List.all_cons]
    cases (valueAt header r).isWritable with
    | false => rfl
    | true => exact ih

/-- Rows of written values, each under names of its own. -/
structure RowsWritten (rows : List (Mapping Value)) : Prop where
  names : ∀ m ∈ rows, (Mapping.keys m).Nodup
  written : ∀ m ∈ rows, ∀ e ∈ m, e.2.isWritable = true

theorem isWritable_entries {m : Mapping Value} (hnames : (Mapping.keys m).Nodup) :
    (Value.dict (Cli.textEntries m)).isWritable = true ↔ ∀ e ∈ m, e.2.isWritable = true := by
  have htexts : ((Cli.textEntries m).map fun e => e.1.text).Nodup := by
    rw [Cli.textEntries, List.map_map]
    exact hnames
  rw [Value.isWritable_dict htexts, Cli.textEntries, List.forall_mem_map]
  exact forall₂_congr fun e _ => ⟨fun h => h.2, fun h => ⟨rfl, h⟩⟩

theorem isWritable_rows {rows : List (Mapping Value)}
    (hnames : ∀ m ∈ rows, (Mapping.keys m).Nodup) :
    (rowsValue (rows.map Cli.textEntries)).isWritable = true ↔
      ∀ m ∈ rows, ∀ e ∈ m, e.2.isWritable = true := by
  rw [rowsValue, Value.isWritable_list, List.forall_mem_map, List.forall_mem_map]
  exact forall₂_congr fun m hm => isWritable_entries (hnames m hm)

/-- Rows of written values are rendered. -/
theorem render_rows {rows : List (Mapping Value)} (h : RowsWritten rows) (headers : List String)
    (out : DataFormat) :
    ∃ lines, render (rows.map Cli.textEntries) headers out = .ok lines := by
  cases out with
  | text =>
    have hrows : ∀ r ∈ rows.map Cli.textEntries, RowWritten r :=
      List.forall_mem_map.2 fun m hm => List.forall_mem_map.2 fun e he => h.written m hm e he
    have hcolumns : (headers.findSome? fun header =>
        columnFault? header (rows.map Cli.textEntries)) = none := by
      refine List.findSome?_eq_none_iff.2 fun header _ => ?_
      rw [columnFault?_eq, if_pos]
      exact List.all_eq_true.2 fun r hr => isWritable_valueAt (hrows r hr) header
    rw [render, hcolumns]
    exact ⟨_, rfl⟩
  | json =>
    rw [render, Value.pretty, Value.written_eq, if_pos ((isWritable_rows h.names).2 h.written)]
    exact ⟨_, rfl⟩

/-- Rows with a value under one of the headers that is not written are not. -/
theorem render_unwritten {rows : List (Mapping Value)} {header : String} {headers : List String}
    (hnames : ∀ m ∈ rows, (Mapping.keys m).Nodup) (hheader : header ∈ headers)
    (h : ∃ m ∈ rows, (valueAt header (Cli.textEntries m)).isWritable = false)
    (out : DataFormat) :
    render (rows.map Cli.textEntries) headers out = .error .unwritable := by
  obtain ⟨m, hm, hcell⟩ := h
  cases out with
  | text =>
    have hcolumn : columnFault? header (rows.map Cli.textEntries) = some .unwritable := by
      rw [columnFault?_eq, if_neg]
      intro hall
      rw [List.all_eq_true.1 hall _ (List.mem_map_of_mem hm)] at hcell
      cases hcell
    cases hfirst : headers.findSome? fun header =>
        columnFault? header (rows.map Cli.textEntries) with
    | none =>
      rw [List.findSome?_eq_none_iff.1 hfirst header hheader] at hcolumn
      cases hcolumn
    | some f =>
      obtain ⟨_, _, hf⟩ := List.exists_of_findSome?_eq_some hfirst
      rw [columnFault?_eq] at hf
      split at hf
      · cases hf
      · cases hf
        rw [render, hfirst]
  | json =>
    have hvalue : (rowsValue (rows.map Cli.textEntries)).isWritable = false := by
      refine eq_false_of_ne_true fun hall => ?_
      have hrow : RowWritten (Cli.textEntries m) :=
        List.forall_mem_map.2 ((isWritable_rows hnames).1 hall m hm)
      rw [isWritable_valueAt hrow header] at hcell
      cases hcell
    rw [render, Value.pretty, Value.written_eq, hvalue]
    rfl

end Table

namespace Cli

open Engine Table

section Options

variable {c : Checker}

/-- What is said of an option, under the names of the columns. -/
def optionFields (v : Variant) (e : String × Value) : Mapping Value :=
  [("option", .str e.1), ("value", e.2),
    ("description", .str (((Options.descriptions v).get? e.1).getD Options.undeclaredText))]

theorem nodup_optionFields (v : Variant) (e : String × Value) :
    (Mapping.keys (optionFields v e)).Nodup := by
  rw [show Mapping.keys (optionFields v e) = ["option", "value", "description"] from rfl]
  decide

theorem optionRows_eq (c : Checker) :
    (c.store.snapshot.map fun (n, v) => optionRow c.variant n v) =
      (c.store.snapshot.map (optionFields c.variant)).map textEntries := by
  rw [List.map_map]
  rfl

theorem optionsOutput_ok (h : ∀ e ∈ c.store.snapshot, e.2.isWritable = true) (out : DataFormat) :
    ∃ lines, optionsOutput c out = .ok ⟨exitClean, linesText lines, ""⟩ := by
  have hrows : RowsWritten (c.store.snapshot.map (optionFields c.variant)) := by
    refine ⟨List.forall_mem_map.2 fun e _ => nodup_optionFields _ e, ?_⟩
    refine List.forall_mem_map.2 fun e he => ?_
    simpa [optionFields] using ⟨rfl, h e he, rfl⟩
  obtain ⟨lines, hlines⟩ := render_rows hrows optionHeaders out
  rw [optionsOutput, tableOutput, optionRows_eq, hlines]
  exact ⟨lines, rfl⟩

/-- Options of which one is not written are not listed. -/
theorem optionsOutput_unwritten (h : ∃ e ∈ c.store.snapshot, e.2.isWritable = false)
    (out : DataFormat) : optionsOutput c out = .error .unwritable := by
  obtain ⟨e, he, hunwritten⟩ := h
  have hnames : ∀ m ∈ c.store.snapshot.map (optionFields c.variant), (Mapping.keys m).Nodup :=
    List.forall_mem_map.2 fun e _ => nodup_optionFields _ e
  have hheader : "value" ∈ optionHeaders := by decide
  have hvalue : valueAt "value" (textEntries (optionFields c.variant e)) = e.2 := rfl
  rw [optionsOutput, tableOutput, optionRows_eq,
    render_unwritten hnames hheader ⟨_, List.mem_map_of_mem he, hvalue ▸ hunwritten⟩ out]
  rfl

end Options

section Engines

variable {l : Loader}

/-- What is said of the script of an edition, under the names of the columns. -/
def engineFields (l : Loader) (v : Variant) (path : Option Path) (digest : String) :
    Mapping Value :=
  [("engine", .str v.text), ("entrypoint", .str v.entryPoint),
    ("script", .str ((path.getD (l.pathOf v)).text)), ("installed", .bool path.isSome),
    ("sha256", .str (String.ofList (digest.toList.take 12)))]

theorem rowsWritten_engines {rows : List (Mapping Value)}
    (h : ∀ m ∈ rows, ∃ v path digest, m = engineFields l v path digest) : RowsWritten rows := by
  constructor
  · intro m hm
    obtain ⟨v, path, digest, rfl⟩ := h m hm
    rw [show Mapping.keys (engineFields l v path digest) =
      ["engine", "entrypoint", "script", "installed", "sha256"] from rfl]
    decide
  · intro m hm
    obtain ⟨v, path, digest, rfl⟩ := h m hm
    simpa [engineFields] using ⟨rfl, rfl, rfl, rfl, rfl⟩

/-- Whatever scripts are listed, there are only texts and booleans to say of them. -/
theorem engineRows_ok (entries : List (Variant × Option Path)) : ∀ {w w' : World}
    {rows : List Table.Row}, engineRows l w entries = (.ok rows, w') →
    ∃ fields : List (Mapping Value), rows = fields.map textEntries ∧
      ∀ m ∈ fields, ∃ v path digest, m = engineFields l v path digest := by
  induction entries with
  | nil =>
    intro w w' rows h
    cases h
    exact ⟨[], rfl, nofun⟩
  | cons entry entries ih =>
    intro w w' rows h
    obtain ⟨v, path⟩ := entry
    have hrow : ∀ digest {rest : List Table.Row} {w₁ w₂ : World},
        engineRows l w₁ entries = (.ok rest, w₂) → rows = engineRow l v path digest :: rest →
        ∃ fields : List (Mapping Value), rows = fields.map textEntries ∧
          ∀ m ∈ fields, ∃ v path digest, m = engineFields l v path digest := by
      rintro digest rest w₁ w₂ hrest rfl
      obtain ⟨fields, rfl, hfields⟩ := ih hrest
      exact ⟨engineFields l v path digest :: fields, rfl,
        List.forall_mem_cons.2 ⟨⟨v, path, digest, rfl⟩, hfields⟩⟩
    cases path with
    | none =>
      rw [Loader.engineRows_absent] at h
      split at h
      · rename_i hrest
        cases h
        exact hrow "" hrest rfl
      · cases h
    | some p =>
      rw [Loader.engineRows_present] at h
      split at h
      · cases h
      · split at h
        · rename_i hrest
          cases h
          exact hrow _ hrest rfl
        · cases h

theorem enginesOutput_ok {entries : List (Variant × Option Path)} {w w' : World}
    {rows : List Table.Row} (h : engineRows l w entries = (.ok rows, w')) (out : DataFormat) :
    ∃ lines, tableOutput rows engineHeaders out = .ok ⟨exitClean, linesText lines, ""⟩ := by
  obtain ⟨fields, rfl, hfields⟩ := engineRows_ok entries h
  obtain ⟨lines, hlines⟩ := render_rows (rowsWritten_engines hfields) engineHeaders out
  rw [tableOutput, hlines]
  exact ⟨lines, rfl⟩

end Engines

section Reports

/-- What is said of a file, under the names of the document. -/
def reportFields (r : FileReport) : Mapping Value :=
  [("path", .str r.path.text), ("clean", .bool r.clean),
    ("diagnostics", .list (r.diagnostics.map fun d => .dict (textEntries d.fields)))]

theorem isWritable_diagnostic {d : Diagnostic} (h : d.isShowable = true) :
    (Value.dict (textEntries d.fields)).isWritable = true := by
  have hnames : (Mapping.keys d.fields).Nodup := by
    rw [show Mapping.keys d.fields = ["line", "character", "reason", "evidence"] from rfl]
    decide
  rw [Diagnostic.isShowable, Bool.and_eq_true] at h
  rw [isWritable_entries hnames]
  simpa [Diagnostic.fields] using ⟨h.1, h.2, rfl, rfl⟩

theorem rowsWritten_reports {rs : List FileReport}
    (h : ∀ r ∈ rs, r.diagnostics.all Diagnostic.isShowable = true) :
    RowsWritten (rs.map reportFields) := by
  constructor
  · refine List.forall_mem_map.2 fun r _ => ?_
    rw [show Mapping.keys (reportFields r) = ["path", "clean", "diagnostics"] from rfl]
    decide
  · refine List.forall_mem_map.2 fun r hr => ?_
    have hfound : (Value.list (r.diagnostics.map fun d => .dict (textEntries d.fields))).isWritable
        = true := by
      refine Value.isWritable_list.2 (List.forall_mem_map.2 fun d hd => ?_)
      exact isWritable_diagnostic (List.all_eq_true.1 (h r hr) d hd)
    simpa [reportFields] using ⟨rfl, rfl, hfound⟩

/-- Reports whose positions can be shown are there in both formats. -/
theorem reportsOutput_ok {rs : List FileReport}
    (h : ∀ r ∈ rs, r.diagnostics.all Diagnostic.isShowable = true) (out : DataFormat) :
    ∃ o, reportsOutput rs out = .ok o ∧ (o.exit = exitClean ∨ o.exit = exitFindings) := by
  cases out with
  | text =>
    rw [reportsOutput]
    split
    · exact ⟨_, rfl, .inl rfl⟩
    · exact ⟨_, rfl, .inr rfl⟩
  | json =>
    obtain ⟨lines, hlines⟩ := render_rows (rowsWritten_reports h) [] .json
    rw [List.map_map] at hlines
    have hrows : Table.render (rs.map reportRow) [] .json = .ok lines := hlines
    rw [reportsOutput, hrows]
    refine ⟨_, rfl, ?_⟩
    simp only
    split
    · exact .inl rfl
    · exact .inr rfl

end Reports

end Cli

end ScriptLint
