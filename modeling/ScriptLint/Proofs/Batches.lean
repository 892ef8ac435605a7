import ScriptLint.Cli.Command
import ScriptLint.Proofs.CheckOutcome

/-!
# ScriptLint.Proofs.Batches

How checking files, and listing scripts, is cut short by a fault that no command handles.

* `Checker.check_error`: why a check fails in such a way
* `Checker.Stops`: a batch of files that is cut short
* `Checker.checkFiles_shown`: positions of a batch that is not
* `Loader.Stops`: a list of scripts that is cut short
-/

namespace ScriptLint

open Engine Cli

variable {w : World} {f : Fault}

/-- Why there is no text of a file. -/
inductive World.NoText (w : World) (p : Path) : Fault → Prop
  | nowhere (hnul : (w.absolute p).hasNul = true) : w.NoText p .nulInPath
  | unread {issue : FileIssue} (hplace : (w.absolute p).hasNul = false)
    (hread : w.tree.read (w.absolute p) = .error issue) : w.NoText p (.file issue p)
  | garbled {content : Content} {flaw : Text.Utf8.Flaw}
    (hread : w.tree.read (w.absolute p) = .ok content)
    (htext : ScriptText.ofContent content = .error flaw) : w.NoText p (.undecodable flaw)

theorem World.readText_error {p : Path} (h : w.readText p = .error f) : w.NoText p f := by
  rw [readText, readScriptText] at h
  cases hnul : (w.absolute p).hasNul with
  | true =>
    simp only [hnul, if_true] at h
    cases h
    exact .nowhere hnul
  | false =>
    simp only [hnul, Bool.false_eq_true, if_false] at h
    cases hread : w.tree.read (w.absolute p) with
    | error issue =>
      simp only [hread] at h
      cases h
      exact .unread hnul hread
    | ok content =>
      simp only [hread] at h
      cases htext : ScriptText.ofContent content with
      | error flaw =>
        simp only [htext] at h
        cases h
        exact .garbled hread htext
      | ok t =>
        simp only [htext] at h
        cases h

theorem World.NoText.readText_eq {p : Path} (h : w.NoText p f) : w.readText p = .error f := by
  rw [readText, readScriptText]
  cases h with
  | nowhere hnul => rw [if_pos hnul]
  | unread hplace hread => simp only [hplace, hread, Bool.false_eq_true, if_false]
  | garbled hread htext =>
    have hplace := (FileTree.locate_ok (FileTree.read_eq_ok_iff.1 hread)).1
    simp only [hplace, hread, htext, Bool.false_eq_true, if_false]

namespace Collector

variable {engine : Variant} {policy : Policy}

theorem parseRecord_handled {index : Int} {record : Value} (h : parseRecord index record = .error f) :
    isHandled f = true := by
  unfold parseRecord at h
  split at h
  · split at h
    · split at h
      · cases h
      · cases h
        rfl
    · cases h
      rfl
  · cases h
    rfl

theorem harvest_handled (records : List Json) : ∀ index : Nat,
    harvest engine policy index records = .error f → isHandled f = true := by
  induction records with
  | nil =>
    intro index h
    cases h
  | cons record records ih =>
    intro index h
    by_cases hnull : record = .null
    · subst hnull
      rw [harvest] at h
      exact ih _ h
    · rw [harvest] at h
      · cases hrecord : parseRecord index record.toValue with
        | ok d =>
          simp only [hrecord] at h
          split at h
          · cases h
          · rename_i hrest
            cases h
            exact ih _ hrest
        | error fault =>
          cases policy with
          | fail =>
            simp only [hrecord] at h
            cases h
            exact parseRecord_handled hrecord
          | skip =>
            simp only [hrecord] at h
            split at h
            · cases h
            · rename_i hrest
              cases h
              exact ih _ hrest
      · exact hnull

theorem gather_handled : ∀ {payloads : List String},
    (gather engine policy payloads).2 = some f → isHandled f = true
  | [], h => by cases h
  | payload :: payloads, h => by
    rw [gather] at h
    split at h
    · cases h
      rfl
    · split at h
      · rename_i hharvest
        cases h
        exact harvest_handled _ _ hharvest
      · exact gather_handled h

theorem collect_handled {c c' : Collector} {journal : Log.Journal}
    (h : c.collect = (.error f, c', journal)) : isHandled f = true := by
  cases hgather : gather c.engine c.policy c.payloads with
  | mk harvested fault =>
    simp only [collect, hgather] at h
    cases fault with
    | none => cases h
    | some e =>
      cases h
      exact gather_handled (congrArg Prod.snd hgather)

end Collector

namespace Engine

variable {s : Script} {options : List (String × Value)} {text : String}

/-- A script is not evaluated to its end for a fault of its own, or because it is not given its
options. -/
theorem evaluate_error (h : evaluate s options text = .error f) :
    isHandled f = true ∨ s.Withholds options ∧ f = .unwritable := by
  by_cases hleaves : ∃ errors, s.Leaves options text errors
  · obtain ⟨errors, hleaves⟩ := hleaves
    rw [hleaves.evaluate_eq] at h
    cases h
  · obtain ⟨detail, hfailed⟩ | hwithheld := evaluate_failed hleaves
    · rw [hfailed] at h
      cases h
      exact .inl rfl
    · rw [hwithheld.evaluate_eq] at h
      cases h
      exact .inr ⟨hwithheld, rfl⟩

theorem runIsolated_error {limits : Limits} {policy : Policy} (hlimits : limits.issue? = none)
    (h : (runIsolated s options text limits policy).1 = .error f) :
    isHandled f = true ∨ s.Withholds options ∧ f = .unwritable := by
  rw [runIsolated_eq hlimits, Context.run_eq rfl rfl] at h
  cases hevaluate : evaluate s options text with
  | error e =>
    rw [hevaluate] at h
    cases h
    exact evaluate_error hevaluate
  | ok payload =>
    simp only [hevaluate] at h
    split at h
    · rename_i hrun
      split at hrun
      · rename_i hcollect
        cases hrun
        cases h
        exact .inl (Collector.collect_handled hcollect)
      · cases hrun
    · cases h

end Engine

namespace Checker

variable {c : Checker} {text : String}

theorem run_error (h : (c.run w text).1 = .error f) : isHandled f = true ∨ c.Escapes w text f := by
  obtain ⟨s, hruns⟩ | ⟨hscript, e, hfails⟩ := c.runs_cases w
  · cases hissue : (Limits.ofSettings c.settings).issue? with
    | some issue =>
      rw [run_limited hruns hissue] at h
      cases h
      exact .inr (.limits hruns hissue)
    | none =>
      rw [run_isolated hruns] at h
      obtain hhandled | ⟨hwithheld, rfl⟩ := runIsolated_error hissue h
      · exact .inl hhandled
      · exact .inr (.options hruns hissue hwithheld)
  · rw [run_fails hscript hfails] at h
    cases h
    by_cases hmissing : f.faultClass = .engineNotFound
    · exact .inl (by rw [isHandled, hmissing]; rfl)
    · exact .inr (.script hscript hfails hmissing)

/-- A check fails with a fault that commands handle, or in one of the listed ways. -/
theorem check_error (h : (c.check w text).1 = .error f) :
    isHandled f = true ∨ c.Escapes w text f := by
  rw [check_eq] at h
  cases hrun : (c.run w text).1 with
  | error e =>
    rw [hrun] at h
    cases h
    exact run_error hrun
  | ok r =>
    rw [hrun] at h
    simp only [Except.map, Except.bind, Diagnostic.report] at h
    split at h
    · cases h
    · rename_i hshown
      cases h
      exact .inr (.positions hrun (by simpa using hshown))

/-- A batch of files is cut short in such a way: by a path with a NUL or a file that is no text, or
by a check, after the files before went through. -/
inductive Stops : Checker → World → List Path → Fault → Prop
  | text {c : Checker} {w : World} {p : Path} {ps : List Path} {f : Fault} (h : w.NoText p f)
    (hescapes : isHandled f = false) : Stops c w (p :: ps) f
  | check {c : Checker} {w : World} {p : Path} {ps : List Path} {text : String} {f : Fault}
    (htext : w.readText p = .ok text) (h : c.Escapes w text f) (hescapes : isHandled f = false) :
    Stops c w (p :: ps) f
  | later {c c' : Checker} {w w' : World} {p : Path} {ps : List Path} {text : String} {r : Result}
    {f : Fault} (htext : w.readText p = .ok text) (hrun : c.run w text = (.ok r, c', w'))
    (hshown : r.diagnostics.all Diagnostic.isShowable = true)
    (h : Stops c' (w'.log [fileNotice c'.variant p r.diagnostics.length]) ps f) :
    Stops c w (p :: ps) f

theorem stops_unhandled {ps : List Path} (h : c.Stops w ps f) : isHandled f = false := by
  induction h with
  | text _ hescapes => exact hescapes
  | check _ _ hescapes => exact hescapes
  | later _ _ _ _ ih => exact ih

section Step

variable {p : Path} {ps : List Path}

theorem checkFiles_refused (ps : List Path) (htext : w.readText p = .ok text)
    (h : (c.check w text).1 = .error f) :
    ∃ c' w', c.checkFiles w (p :: ps) = (.error f, c', w') := by
  rw [check_eq] at h
  obtain ⟨⟨r, c', w'⟩, hrun⟩ : ∃ outcome, c.run w text = outcome := ⟨_, rfl⟩
  rw [hrun] at h
  rw [checkFiles, htext]
  simp only [hrun]
  cases r with
  | error e =>
    cases h
    exact ⟨_, _, rfl⟩
  | ok r =>
    have hreport : Diagnostic.report r.diagnostics = .error f := h
    simp only [hreport]
    exact ⟨_, _, rfl⟩

/-- A file that went through leaves the rest of the batch to be checked. -/
theorem checkFiles_step {r : Result} {c' : Checker} {w' : World}
    (htext : w.readText p = .ok text) (hrun : c.run w text = (.ok r, c', w'))
    (hshown : r.diagnostics.all Diagnostic.isShowable = true) :
    c.checkFiles w (p :: ps) =
      match c'.checkFiles (w'.log [fileNotice c'.variant p r.diagnostics.length]) ps with
      | (.error f, c, w) => (.error f, c, w)
      | (.ok rs, c, w) =>
        (.ok (⟨p, Diagnostic.report? r.diagnostics, r.diagnostics⟩ :: rs), c, w) := by
  obtain ⟨⟨rest, c₂, w₂⟩, hrest⟩ : ∃ outcome,
      c'.checkFiles (w'.log [fileNotice c'.variant p r.diagnostics.length]) ps = outcome := ⟨_, rfl⟩
  cases rest <;> simp only [checkFiles, htext, hrun, Diagnostic.report, hshown, if_true, hrest]

/-- The first file of a batch has no text, or its check fails, or it goes through. -/
theorem file_cases (c : Checker) (w : World) (p : Path) :
    (∃ f, w.readText p = .error f) ∨ ∃ text, w.readText p = .ok text ∧
      ((∃ f, (c.check w text).1 = .error f) ∨ ∃ r c' w', c.run w text = (.ok r, c', w') ∧
        r.diagnostics.all Diagnostic.isShowable = true) := by
  cases htext : w.readText p with
  | error f => exact .inl ⟨f, rfl⟩
  | ok text =>
    refine .inr ⟨text, rfl, ?_⟩
    rw [check_eq]
    obtain ⟨⟨r, c', w'⟩, hrun⟩ : ∃ outcome, c.run w text = outcome := ⟨_, rfl⟩
    rw [hrun]
    cases r with
    | error e => exact .inl ⟨e, rfl⟩
    | ok r =>
      cases hshown : r.diagnostics.all Diagnostic.isShowable with
      | true => exact .inr ⟨r, c', w', rfl, hshown⟩
      | false =>
        refine .inl ⟨.unwritable, ?_⟩
        simp only [Except.map, Except.bind, Diagnostic.report, hshown, Bool.false_eq_true, if_false]

end Step

theorem checkFiles_error (ps : List Path) : ∀ {c c' : Checker} {w w' : World},
    c.checkFiles w ps = (.error f, c', w') → isHandled f = true ∨ c.Stops w ps f := by
  induction ps with
  | nil =>
    intro c c' w w' h
    cases h
  | cons p ps ih =>
    intro c c' w w' h
    by_cases hhandled : isHandled f = true
    · exact .inl hhandled
    have hescapes : isHandled f = false := eq_false_of_ne_true hhandled
    refine .inr ?_
    obtain ⟨e, htext⟩ | ⟨text, htext, ⟨e, hcheck⟩ | ⟨r, c₁, w₁, hrun, hshown⟩⟩ :=
      file_cases c w p
    · rw [checkFiles, htext] at h
      cases h
      exact .text (World.readText_error htext) hescapes
    · obtain ⟨c₁, w₁, hrefused⟩ := checkFiles_refused ps htext hcheck
      rw [hrefused] at h
      cases h
      exact .check htext ((check_error hcheck).resolve_left hhandled) hescapes
    · rw [checkFiles_step htext hrun hshown] at h
      split at h
      · rename_i hrest
        cases h
        exact .later htext hrun hshown ((ih hrest).resolve_left hhandled)
      · cases h

theorem checkFiles_stops {ps : List Path} (h : c.Stops w ps f) :
    ∃ c' w', c.checkFiles w ps = (.error f, c', w') := by
  induction h with
  | text h _ =>
    rw [checkFiles, h.readText_eq]
    exact ⟨_, _, rfl⟩
  | check htext h _ => exact checkFiles_refused _ htext (check_escapes h)
  | later htext hrun hshown _ ih =>
    obtain ⟨c', w', hrest⟩ := ih
    rw [checkFiles_step htext hrun hshown, hrest]
    exact ⟨_, _, rfl⟩

/-- All positions in the reports of a batch can be shown. -/
theorem checkFiles_shown (ps : List Path) : ∀ {c c' : Checker} {w w' : World}
    {rs : List FileReport}, c.checkFiles w ps = (.ok rs, c', w') →
    ∀ r ∈ rs, r.diagnostics.all Diagnostic.isShowable = true := by
  induction ps with
  | nil =>
    intro c c' w w' rs h
    cases h
    exact List.forall_mem_nil _
  | cons p ps ih =>
    intro c c' w w' rs h
    obtain ⟨e, htext⟩ | ⟨text, htext, ⟨e, hcheck⟩ | ⟨r, c₁, w₁, hrun, hshown⟩⟩ :=
      file_cases c w p
    · rw [checkFiles, htext] at h
      cases h
    · obtain ⟨c₁, w₁, hrefused⟩ := checkFiles_refused ps htext hcheck
      rw [hrefused] at h
      cases h
    · rw [checkFiles_step htext hrun hshown] at h
      split at h
      · cases h
      · rename_i hrest
        cases h
        exact List.forall_mem_cons.2 ⟨hshown, ih hrest⟩

end Checker

namespace Engine.Loader

theorem load_error {l : Loader} {v : Variant} {w' : World}
    (h : l.load w (.choice (.variant v)) = (.error f, w')) : l.Fails w v f := by
  obtain ⟨s, hloads⟩ | ⟨e, hfails⟩ := load_cases l w v
  · obtain ⟨w₁, hload⟩ := load_loads hloads
    rw [hload] at h
    cases h
  · rw [load_fails hfails] at h
    cases h
    exact hfails

/-- Listing scripts is cut short by one that cannot be loaded, after those before it were. -/
inductive Stops (l : Loader) : World → List (Variant × Option Path) → Fault → Prop
  | script {w : World} {v : Variant} {p : Path} {rest : List (Variant × Option Path)} {f : Fault}
    (h : l.Fails w v f) (hescapes : isHandled f = false) : l.Stops w ((v, some p) :: rest) f
  | absent {w : World} {v : Variant} {rest : List (Variant × Option Path)} {f : Fault}
    (h : l.Stops w rest f) : l.Stops w ((v, none) :: rest) f
  | later {w w' : World} {v : Variant} {p : Path} {rest : List (Variant × Option Path)}
    {s : Script} {f : Fault} (hload : l.load w (.choice (.variant v)) = (.ok s, w'))
    (h : l.Stops w' rest f) : l.Stops w ((v, some p) :: rest) f

section Rows

variable (l : Loader) (w : World) (v : Variant) (rest : List (Variant × Option Path))

-- `load` stays closed: opening it on both sides is slow.
seal load in
theorem engineRows_absent :
    engineRows l w ((v, none) :: rest) =
      match engineRows l w rest with
      | (.ok rows, w') => (.ok (engineRow l v none "" :: rows), w')
      | (.error f, w') => (.error f, w') := rfl

seal load in
theorem engineRows_present (path : Path) :
    engineRows l w ((v, some path) :: rest) =
      match l.load w (.choice (.variant v)) with
      | (.error f, w₁) => (.error f, w₁)
      | (.ok script, w₁) =>
        match engineRows l w₁ rest with
        | (.ok rows, w₂) => (.ok (engineRow l v (some path) script.digest :: rows), w₂)
        | (.error f, w₂) => (.error f, w₂) := rfl

end Rows

variable {l : Loader}

theorem engineRows_error (rows : List (Variant × Option Path)) : ∀ {w w' : World},
    engineRows l w rows = (.error f, w') → isHandled f = true ∨ l.Stops w rows f := by
  induction rows with
  | nil =>
    intro w w' h
    cases h
  | cons row rows ih =>
    intro w w' h
    obtain ⟨v, path⟩ := row
    cases path with
    | none =>
      rw [engineRows_absent] at h
      split at h
      · cases h
      · rename_i hrest
        cases h
        obtain hhandled | hstops := ih hrest
        · exact .inl hhandled
        · exact .inr (.absent hstops)
    | some p =>
      rw [engineRows_present] at h
      split at h
      · rename_i hload
        cases h
        cases hescapes : isHandled f with
        | true => exact .inl rfl
        | false => exact .inr (.script (load_error hload) hescapes)
      · rename_i hload
        split at h
        · cases h
        · rename_i hrest
          cases h
          obtain hhandled | hstops := ih hrest
          · exact .inl hhandled
          · exact .inr (.later hload hstops)

theorem stops_unhandled {rows : List (Variant × Option Path)} (h : l.Stops w rows f) :
    isHandled f = false := by
  induction h with
  | script _ hescapes => exact hescapes
  | absent _ ih => exact ih
  | later _ _ ih => exact ih

theorem engineRows_stops {rows : List (Variant × Option Path)} (h : l.Stops w rows f) :
    ∃ w', engineRows l w rows = (.error f, w') := by
  induction h with
  | script hfails _ =>
    rw [engineRows_present, load_fails hfails]
    exact ⟨_, rfl⟩
  | absent _ ih =>
    obtain ⟨w', hrest⟩ := ih
    rw [engineRows_absent, hrest]
    exact ⟨_, rfl⟩
  | later hload _ ih =>
    obtain ⟨w', hrest⟩ := ih
    rw [engineRows_present, hload]
    simp only [hrest]
    exact ⟨_, rfl⟩

end Engine.Loader

end ScriptLint
