import ScriptLint.Proofs.Batches
import ScriptLint.Proofs.Consulted

/-!
# ScriptLint.Proofs.Passes

Batches of files that are all checked.

* `reportOf`: the report on what was found in a file
* `Checker.Passes`: a batch in which every file is checked, with what was found in each
* `Checker.checkFiles_passes`, `Checker.passes_of_checkFiles`: there are reports for these batches
* `Checker.sameFiles_run`: checks leave files alone
* `Checker.Hands`: a script of the library, with the options that it is handed
* `Checker.passes_hands`, `Checker.passes_bundled`: files that are texts, checked with it
-/

namespace ScriptLint

open Text Engine

/-- The report on a file in which something was found, or nothing. -/
def reportOf (e : Path × List Diagnostic) : FileReport := ⟨e.1, Diagnostic.report? e.2, e.2⟩

theorem clean_reportOf (e : Path × List Diagnostic) : (reportOf e).clean = e.2.isEmpty := by
  rw [reportOf, FileReport.clean, Diagnostic.report?]
  cases e.2 <;> rfl

namespace Checker

/-- A batch in which every file is read and checked, with what is found in each, in places that can
be shown. -/
inductive Passes : Checker → World → List Path → List (Path × List Diagnostic) → Prop
  | nil {c : Checker} {w : World} : Passes c w [] []
  | cons {c c' : Checker} {w w' : World} {p : Path} {ps : List Path} {text : String} {r : Result}
    {found : List (Path × List Diagnostic)} (htext : w.readText p = .ok text)
    (hrun : c.run w text = (.ok r, c', w'))
    (hshown : r.diagnostics.all Diagnostic.isShowable = true)
    (h : Passes c' (w'.log [fileNotice c'.variant p r.diagnostics.length]) ps found) :
    Passes c w (p :: ps) ((p, r.diagnostics) :: found)

variable {c : Checker} {w : World} {ps : List Path} {found : List (Path × List Diagnostic)}

theorem Passes.paths (h : c.Passes w ps found) : found.map Prod.fst = ps := by
  induction h with
  | nil => rfl
  | cons _ _ _ _ ih => rw [List.map_cons, ih]

theorem Passes.shown (h : c.Passes w ps found) :
    ∀ e ∈ found, e.2.all Diagnostic.isShowable = true := by
  induction h with
  | nil => exact List.forall_mem_nil _
  | cons _ _ hshown _ ih => exact List.forall_mem_cons.2 ⟨hshown, ih⟩

theorem checkFiles_passes (h : c.Passes w ps found) :
    ∃ c' w', c.checkFiles w ps = (.ok (found.map reportOf), c', w') := by
  induction h with
  | nil => exact ⟨_, _, rfl⟩
  | cons htext hrun hshown _ ih =>
    obtain ⟨c', w', hrest⟩ := ih
    rw [checkFiles_step htext hrun hshown, hrest]
    exact ⟨_, _, rfl⟩

theorem passes_of_checkFiles (ps : List Path) : ∀ {c c' : Checker} {w w' : World}
    {rs : List FileReport}, c.checkFiles w ps = (.ok rs, c', w') →
    ∃ found, c.Passes w ps found := by
  induction ps with
  | nil =>
    intro c c' w w' rs h
    exact ⟨[], .nil⟩
  | cons p ps ih =>
    intro c c' w w' rs h
    obtain ⟨f, htext⟩ | ⟨text, htext, ⟨f, hcheck⟩ | ⟨r, c₁, w₁, hrun, hshown⟩⟩ := file_cases c w p
    · rw [checkFiles, htext] at h
      cases h
    · obtain ⟨_, _, hrefused⟩ := checkFiles_refused ps htext hcheck
      rw [hrefused] at h
      cases h
    · rw [checkFiles_step htext hrun hshown] at h
      split at h
      · cases h
      · rename_i hrest
        obtain ⟨found, hpasses⟩ := ih hrest
        exact ⟨_, .cons htext hrun hshown hpasses⟩

theorem sameFiles_pinScript (c : Checker) (w : World) : w.SameFiles (c.pinScript w).2.2 := by
  have hload := Loader.sameFiles_load c.loader w (.choice (.variant c.variant))
  rw [pinScript]
  split
  · exact .refl w
  · split
    · rename_i h
      rw [h] at hload
      exact hload
    · rename_i h
      rw [h] at hload
      exact hload

/-- A check leaves files alone. -/
theorem sameFiles_run (c : Checker) (w : World) (text : String) :
    w.SameFiles (c.run w text).2.2 := by
  have hpin := sameFiles_pinScript c w
  rw [run, runOn]
  split
  · rename_i h
    rw [h] at hpin
    exact hpin
  · rename_i h
    rw [h] at hpin
    split
    · exact hpin.log _
    · exact hpin.log _

variable {c : Checker} {w : World} {path : Path} {o : Engine.Options}

/-- A checker whose checks hand a script of the library these options, in a context that the
interpreter can open. -/
structure Hands (c : Checker) (w : World) (path : Path) (o : Engine.Options) : Prop where
  runs : c.Runs w (bundledScript c.variant path)
  limits : c.Opens
  written : c.Written
  options : assignValues .empty (Mapping.ofPairs c.store.snapshot) = .ok o

/-- The checker after its first check has the script whatever happens to the world. -/
theorem Hands.pin (h : c.Hands w path o) (w₂ : World) :
    ({ c with script := some (bundledScript c.variant path) } : Checker).Hands w₂ path o :=
  ⟨.pinned rfl, h.limits, h.written, h.options⟩

theorem run_hands {text : String} (h : c.Hands w path o)
    (hwidth : width text.toList < 10 ^ Digits.limit) :
    ∃ w', c.run w text = (.ok ⟨c.variant, bundledDiagnostics c.variant o.switches text, 0⟩,
      { c with script := some (bundledScript c.variant path) }, w') ∧ w.SameFiles w' := by
  have hfiles := sameFiles_run c w text
  have hhand : handOver c.store.snapshot text = .ok (o, untilNul text.toList) :=
    handOver_eq_ok_iff.2 ⟨allWritable_iff.2 h.written, h.options, rfl⟩
  obtain ⟨_, _, hpin, _⟩ := pinScript_runs h.runs
  obtain ⟨s, hs, hchecker, hrun⟩ | ⟨fault, hfault, _⟩ := run_cases c w text
  · rw [hpin] at hs
    cases hs
    rw [runIsolated_bundled h.limits hhand hwidth] at hrun
    exact ⟨_, Prod.ext hrun (Prod.ext hchecker rfl), hfiles⟩
  · rw [hpin] at hfault
    cases hfault

/-- Files that are texts are all checked with a script of the library. What it finds in one does not
depend on the files before it. -/
theorem passes_hands {texts : List (Path × String)} (h : c.Hands w path o)
    (htexts : ∀ e ∈ texts, w.readText e.1 = .ok e.2 ∧
      width e.2.toList + 1 < 10 ^ Digits.limit) :
    c.Passes w (texts.map Prod.fst) (texts.map fun e =>
      (e.1, bundledDiagnostics c.variant o.switches e.2)) := by
  induction texts generalizing c w with
  | nil => exact .nil
  | cons e texts ih =>
    obtain ⟨htext, hwidth⟩ := htexts e List.mem_cons_self
    obtain ⟨w', hrun, hfiles⟩ := run_hands h (Nat.lt_of_succ_lt hwidth)
    refine .cons htext hrun (bundledDiagnostics_showable _ _ hwidth) (ih (h.pin _) fun x hx => ?_)
    obtain ⟨hread, hnarrow⟩ := htexts x (List.mem_cons_of_mem e hx)
    exact ⟨((hfiles.log _).readText x.1).trans hread, hnarrow⟩

/-- A script of the library sees the truth of the options. -/
theorem OnBundle.hands (h : c.OnBundle w) (hwritten : c.Written) :
    ∃ path o, c.Hands w path o ∧ AgreeOn c.variant o.switches (truth c.store.snapshot) := by
  obtain ⟨path, hruns⟩ := h.runs
  obtain ⟨hshaped, hvariant⟩ := h.made.shaped
  obtain ⟨o, hhand⟩ := handOver_untilNul (allWritable_iff.2 hwritten)
    (fun e he => Value.isFinite_of_isOrdinary (h.values e he)) ""
  have hagree := switches_snapshot hshaped h.values hhand
  rw [hvariant] at hagree
  obtain ⟨_, ho, _⟩ := handOver_eq_ok_iff.1 hhand
  exact ⟨path, o, ⟨hruns, h.limits, hwritten, ho⟩, hagree⟩

theorem passes_bundled {texts : List (Path × String)} (h : c.OnBundle w) (hwritten : c.Written)
    (htexts : ∀ e ∈ texts, w.readText e.1 = .ok e.2 ∧
      width e.2.toList + 1 < 10 ^ Digits.limit) :
    c.Passes w (texts.map Prod.fst) (texts.map fun e =>
      (e.1, bundledDiagnostics c.variant (truth c.store.snapshot) e.2)) := by
  obtain ⟨path, o, hhands, hagree⟩ := h.hands hwritten
  have hpasses := passes_hands hhands htexts
  simpa only [bundledDiagnostics_congr hagree] using hpasses

end Checker

end ScriptLint
