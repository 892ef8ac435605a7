import ScriptLint.Proofs.Consulted
import ScriptLint.Proofs.Echo
import ScriptLint.Proofs.Editions

/-!
# ScriptLint.Proofs.FirstFinding

With `passfail` the strict edition gives up after its first finding, wherever that is made. It looks
for one thing after the other and notes down what it finds; each time it may be told to give up, and
then nothing more is looked at. What it leaves behind is the first of all findings, and a mark.

* `Lint.notes`: the edition, one look after the other, with an end after each
* `Lint.look_eq`, `Lint.lookAtLine_eq`, `Lint.lookAtLines_eq`: looking is noting findings down in
  their order
* `Lint.foldlM_warn_on`, `Lint.foldlM_warn_off`: noting findings down with and without an end
* `Lint.notes_eq_trail`: the edition leaves behind what it has noted down
* `passfail_stops`: the records and the diagnostics of the script of the library
-/

namespace ScriptLint.Analysis

open ScriptLint.Text

namespace Lint

section Notes

/-- What was noted down so far, or, as an error, what was noted down when the edition gave up. -/
abbrev Notes := Except (List (Option Finding)) (List (Option Finding))

/-- What was noted down in the end. -/
def Notes.all : Notes → List (Option Finding)
  | .ok noted => noted
  | .error noted => noted

/-- Notes a finding down; with `passfail` this is the end. -/
def warn (on : Switches) (noted : List (Option Finding)) (f : Finding) : Notes :=
  if on .passfail then .error (noted ++ [some f, none]) else .ok (noted ++ [some f])

/-- Warns of what was found, if a switch is set as the rule needs it. -/
def look {α : Type} (on : Switches) (active : Bool) (rule : Rule) (line : Nat)
    (evidence : List Char) (found : Option (Nat × α)) (reason : α → String)
    (noted : List (Option Finding)) : Notes :=
  match active, found with
  | true, some (column, a) => warn on noted ⟨rule, line, column, reason a, evidence⟩
  | _, _ => .ok noted

def lookAtLine (on : Switches) (line : Nat) (text : List Char) (m : Masked)
    (noted : List (Option Finding)) : Notes :=
  if m.code = [] then .ok noted
  else do
    let noted ← look on (on .eqeqeq) .eqeqeq line text (find looseEither m.code)
      (fun op => "Expected " ++ quote (op ++ ['=']) ++ " and instead saw " ++ quote op ++ ".") noted
    let noted ← look on (!on .evil) .evil line text (find evalCall m.code)
      (fun _ => "eval is evil.") noted
    let noted ← look on (on .plusplus) .plusplus line text (find increment m.code)
      (fun op => "Unexpected " ++ quote op ++ ".") noted
    let noted ← look on (!on .debug) .debug line text (find (word "debugger") m.code)
      (fun _ => "Unexpected 'debugger'.") noted
    let noted ← look on (on .nomen) .nomen line text (find danglingName m.code)
      (fun name => "Unexpected dangling '_' in " ++ quote name ++ ".") noted
    let noted ← look on (on .white && endsInSpace text) .white line text (some (width m.code, ()))
      (fun _ => "Unexpected trailing space.") noted
    look on (!m.inComment && lacksSemicolon m.code) .semicolon line text
      (some (width m.code, ())) (fun _ => "Missing semicolon.") noted

def lookAtLines (on : Switches) : Bool → Nat → List (List Char) → List (Option Finding) → Notes
  | _, _, [], noted => .ok noted
  | inComment, line, text :: texts, noted => do
    let m := mask inComment text
    let noted ← lookAtLine on line text m noted
    lookAtLines on m.inComment (line + 1) texts noted

/-- The edition as it goes: it looks at the whole text, and then at one line after the other. -/
def notes (on : Switches) (source : List Char) : List (Option Finding) :=
  Notes.all do
    let noted ← look on (on .strict && !declaresStrict source) .strict 0 ((lines source).headD [])
      (some (0, ())) (fun _ => "Missing \"use strict\" statement.") []
    lookAtLines on false 0 (lines source) noted

end Notes

variable (on : Switches)

theorem look_eq {α : Type} (active : Bool) (rule : Rule) (line : Nat) (evidence : List Char)
    (found : Option (Nat × α)) (reason : α → String) (noted : List (Option Finding)) :
    look on active rule line evidence found reason noted =
      (report active rule line evidence found reason).foldlM (warn on) noted := by
  cases active with
  | false => cases found <;> rfl
  | true =>
    cases found with
    | none => rfl
    | some found => exact (bind_pure _).symm

/-- Looking at a line is noting its findings down. -/
theorem lookAtLine_eq (line : Nat) (text : List Char) (m : Masked)
    (noted : List (Option Finding)) :
    lookAtLine on line text m noted = (lineFindings on line text m).foldlM (warn on) noted := by
  rw [lookAtLine, lineFindings]
  split
  · rfl
  · simp only [look_eq, List.foldlM_append, bind_assoc]

theorem lookAtLines_eq (texts : List (List Char)) :
    ∀ (inComment : Bool) (line : Nat) (noted : List (Option Finding)),
      lookAtLines on inComment line texts noted =
        (scan on inComment line texts).foldlM (warn on) noted := by
  induction texts with
  | nil => intro inComment line noted; rfl
  | cons text texts ih =>
    intro inComment line noted
    rw [lookAtLines, scan, walk, List.foldlM_append, lookAtLine_eq]
    exact congrArg _ (funext fun noted => ih _ (line + 1) noted)

/-- The edition notes its findings down, one after the other. -/
theorem notes_eq (source : List Char) :
    notes on source = Notes.all ((findings on source).foldlM (warn on) []) := by
  have hstrict : report (on .strict && !declaresStrict source) .strict 0
      ((lines source).headD []) (some (0, ())) (fun _ => "Missing \"use strict\" statement.") =
        strictFindings on source ((lines source).headD []) := by
    rw [strictFindings]
    cases on .strict && !declaresStrict source <;> rfl
  rw [notes, findings, List.foldlM_append, look_eq, hstrict]
  exact congrArg _ (congrArg _ (funext fun noted => lookAtLines_eq on _ false 0 noted))

variable {on}

/-- Nothing is noted down behind the first finding but that the edition gave up. -/
theorem foldlM_warn_on (h : on .passfail = true) (fs : List Finding)
    (noted : List (Option Finding)) :
    fs.foldlM (warn on) noted =
      match fs with
      | [] => .ok noted
      | f :: _ => .error (noted ++ [some f, none]) := by
  cases fs with
  | nil => rfl
  | cons f fs =>
    rw [List.foldlM_cons, warn, if_pos h]
    rfl

theorem foldlM_warn_off (h : on .passfail = false) (fs : List Finding) :
    ∀ noted : List (Option Finding), fs.foldlM (warn on) noted = .ok (noted ++ fs.map some) := by
  induction fs with
  | nil =>
    intro noted
    rw [List.map_nil, List.append_nil]
    rfl
  | cons f fs ih =>
    intro noted
    have hwarn : warn on noted f = .ok (noted ++ [some f]) := by
      rw [warn, h, if_neg Bool.false_ne_true]
    rw [List.foldlM_cons, hwarn]
    refine (ih _).trans ?_
    rw [List.append_assoc]
    rfl

/-- What is left behind by an edition that gives up after the first of some findings. -/
def gaveUp : List Finding → List (Option Finding)
  | [] => []
  | f :: _ => [some f, none]

theorem notes_on (h : on .passfail = true) (source : List Char) :
    notes on source = gaveUp (findings on source) := by
  rw [notes_eq, foldlM_warn_on h]
  cases findings on source <;> rfl

theorem notes_off (h : on .passfail = false) (source : List Char) :
    notes on source = (findings on source).map some := by
  rw [notes_eq, foldlM_warn_off h]
  rfl

theorem trail_on (h : on .passfail = true) (source : List Char) :
    trail on source = gaveUp (findings on source) := by
  rw [trail, if_pos h, firstFinding_eq]
  cases findings on source <;> rfl

theorem trail_off (h : on .passfail = false) (source : List Char) :
    trail on source = (findings on source).map some := by
  rw [trail, h, if_neg Bool.false_ne_true]

/-- What the edition leaves behind is what it noted down, look by look. -/
theorem notes_eq_trail (on : Switches) (source : List Char) : notes on source = trail on source := by
  cases h : on .passfail with
  | true => rw [notes_on h, trail_on h]
  | false => rw [notes_off h, trail_off h]

theorem gaveUp_findings (fs : List Finding) : (gaveUp fs).filterMap id = fs.take 1 := by
  cases fs <;> rfl

end Lint

end ScriptLint.Analysis

namespace ScriptLint

open Text Engine Analysis

/-- With `passfail` the strict edition leaves nothing behind if it finds nothing without, and else
the first of its findings and a null. The options may be any, in two objects that differ in no other
option that the edition looks at. So do the records that the script of the library leaves, and the
diagnostics of a check are the first of those without `passfail`, with nothing left out under either
policy; only that a text has to be narrower than the least number with too many digits for the reader
of records. What the edition leaves behind is what it notes down when it is followed look by look. -/
theorem passfail_stops (o o' : Options) (source : List Char) (hon : o.isOn "passfail" = true)
    (hoff : o'.isOn "passfail" = false)
    (hsame : ∀ s ∈ consulted .jslint, s ≠ .passfail → o.isOn s.name = o'.isOn s.name) :
    ∃ fs : List Finding,
      bundledTrail .jslint o'.switches source = fs.map some ∧
      bundledTrail .jslint o.switches source = Lint.gaveUp fs ∧
      (∀ on, bundledTrail .jslint on source = Lint.notes on source) ∧
      ∀ path options options' text, handOver options text = .ok (o, source) →
        handOver options' text = .ok (o', source) →
        Reports .jslint path options' text fs ∧
        evaluate (bundledScript .jslint path) options text =
          .ok (trailRecords (Lint.gaveUp fs)).stringify ∧
        ∀ limits policy, limits.issue? = none → width text.toList < 10 ^ Digits.limit →
          (runIsolated (bundledScript .jslint path) options' text limits policy).1 =
            .ok ⟨.jslint, fs.map ofFinding, 0⟩ ∧
          (runIsolated (bundledScript .jslint path) options text limits policy).1 =
            .ok ⟨.jslint, (fs.map ofFinding).take 1, 0⟩ := by
  have hfindings : Lint.findings o.switches = Lint.findings o'.switches := lint_findings_congr hsame
  have htrail : bundledTrail .jslint o'.switches source =
      (Lint.findings o'.switches source).map some := Lint.trail_off hoff source
  have hgaveUp : bundledTrail .jslint o.switches source =
      Lint.gaveUp (Lint.findings o'.switches source) := by
    rw [bundledTrail, Lint.trail_on hon, hfindings]
  refine ⟨_, htrail, hgaveUp, fun on => (Lint.notes_eq_trail on source).symm, ?_⟩
  intro path options options' text hhand hhand'
  refine ⟨reports_trail hhand' htrail, ?_, ?_⟩
  · rw [← hgaveUp]
    exact evaluate_arr (bundled_program .jslint path) hhand rfl
  · intro limits policy hlimits hwidth
    obtain ⟨_, _, rfl⟩ := handOver_eq_ok_iff.1 hhand
    rw [runIsolated_bundled hlimits hhand' hwidth, runIsolated_bundled hlimits hhand hwidth,
      bundledDiagnostics, bundledDiagnostics, htrail, hgaveUp, Lint.gaveUp_findings, List.map_take,
      filterMap_map_some]
    exact ⟨rfl, rfl⟩

/-- Options that let the strict edition find something, with `passfail` as it is given. -/
def passfailOptions (passfail : Bool) : List (String × Value) :=
  [("eqeqeq", .bool true), ("passfail", .bool passfail), ("nomen", .bool true)]

def passfailObject (passfail : Bool) : Options :=
  ⟨[("eqeqeq", .bool true), ("passfail", .bool passfail), ("nomen", .bool true)], []⟩

theorem handOver_passfail (passfail : Bool) :
    handOver (passfailOptions passfail) "/*\n*/_a == eval(b)\nc" =
      .ok (passfailObject passfail, "/*\n*/_a == eval(b)\nc".toList) := by
  have hnames : ["eqeqeq", "passfail", "nomen"].Nodup := by decide
  have hproto : Options.prototypeName ∉ ["eqeqeq", "passfail", "nomen"] := by decide
  exact handOver_flags [("eqeqeq", true), ("passfail", passfail), ("nomen", true)] hnames hproto _

theorem passfail_stops_midline :
    ∃ fs : List Finding, fs.length = 5 ∧
      (runIsolated (bundledScript .jslint (Path.parse "jslint.js")) (passfailOptions false)
        "/*\n*/_a == eval(b)\nc" Limits.none .fail).1 = .ok ⟨.jslint, fs.map ofFinding, 0⟩ ∧
      (runIsolated (bundledScript .jslint (Path.parse "jslint.js")) (passfailOptions true)
        "/*\n*/_a == eval(b)\nc" Limits.none .fail).1 =
          .ok ⟨.jslint, (fs.map ofFinding).take 1, 0⟩ := by
  have hwidth : width "/*\n*/_a == eval(b)\nc".toList < 10 ^ Digits.limit :=
    Nat.lt_of_lt_of_le (by decide : _ < 10 ^ 2) (Nat.pow_le_pow_right (by decide) (by decide))
  obtain ⟨fs, htrail, _, _, hruns⟩ := passfail_stops (passfailObject true) (passfailObject false)
    "/*\n*/_a == eval(b)\nc".toList (by decide) (by decide) (by decide)
  obtain ⟨_, _, hrun⟩ := hruns (Path.parse "jslint.js") _ _ _ (handOver_passfail true)
    (handOver_passfail false)
  refine ⟨fs, ?_, hrun Limits.none .fail (by decide) hwidth⟩
  rw [← List.length_map, ← htrail]
  decide

end ScriptLint
