import ScriptLint.Proofs.Places
import ScriptLint.Proofs.Precedence

/-!
# ScriptLint.Proofs.Discovered

Which configuration is found from a directory. Two searches follow each other: one goes up to the
nearest directory that has anything under one of the names, the other goes through the names in that
directory only.

* `Path.Above`, `World.IsRoot`: the nearest directory with a configuration
* `isRoot_iff`, `projectRoot_place`: the directory that is found is that one
* `Skipped`, `Refused`, `Decides`: what a file says about the configuration
* `ofFiles_decided`: the first file that is not skipped decides
* `loadConfiguration_discovered`: what is loaded from a directory
* `read_onesText`, `loadConfiguration_onesWorld`: an integer that is not converted
-/

namespace ScriptLint

namespace Path

/-- The path itself, or a directory above it. -/
def Above (dir p : Path) : Prop := dir.slashes = p.slashes ∧ dir.parts <+: p.parts

theorem mem_ancestors {dir p : Path} : dir ∈ p.ancestors ↔ dir.Above p := by
  rw [ancestors, List.mem_map]
  constructor
  · rintro ⟨k, _, rfl⟩
    exact ⟨rfl, List.take_prefix _ _⟩
  · rintro ⟨hslashes, hparts⟩
    have hlength := hparts.length_le
    refine ⟨p.parts.length - dir.parts.length, List.mem_range.2 (by omega), ?_⟩
    rw [Nat.sub_sub_self hlength, ← List.prefix_iff_eq_take.1 hparts, ← hslashes]

/-- Directories above a path come nearest first. -/
theorem ancestors_nearest_first (p : Path) :
    p.ancestors.Pairwise fun near far => far.Above near := by
  rw [ancestors, List.pairwise_map]
  refine List.pairwise_lt_range.imp fun {i j} hij => ⟨rfl, List.take_prefix_take_left ?_⟩
  omega

theorem Above.antisymm {p q : Path} (h : p.Above q) (h' : q.Above p) : p = q := by
  obtain ⟨slashes, parts⟩ := p
  obtain ⟨_, hparts⟩ := h'
  obtain ⟨rfl, hparts'⟩ := h
  rw [show parts = q.parts from hparts'.eq_of_length_le hparts.length_le]

/-- No double dots are left when they are taken back. -/
theorem plain_collapse (ps : List String) : ∀ done : List String, ".." ∉ done →
    ".." ∉ collapse done ps := by
  induction ps with
  | nil =>
    intro done hdone
    rwa [collapse, List.mem_reverse]
  | cons p ps ih =>
    intro done hdone
    rw [collapse]
    split
    · exact ih _ fun h => hdone (List.mem_of_mem_tail h)
    · rename_i hp
      refine ih _ ?_
      rw [List.mem_cons, not_or]
      exact ⟨Ne.symm hp, hdone⟩

theorem collapse_plain (ps : List String) : ∀ done : List String, ".." ∉ ps →
    collapse done ps = done.reverse ++ ps := by
  induction ps with
  | nil => simp [collapse]
  | cons p ps ih =>
    intro done hps
    rw [List.mem_cons, not_or] at hps
    rw [collapse, if_neg (Ne.symm hps.1), ih _ hps.2, List.reverse_cons, List.append_assoc]
    rfl

/-- A path from the root without double dots is that of the place itself. -/
theorem resolve_plain {p : Path} (hslashes : p.slashes = 1) (hplain : ".." ∉ p.parts)
    (cwd : Path) : p.resolve cwd = p := by
  obtain ⟨slashes, parts⟩ := p
  obtain rfl : slashes = 1 := hslashes
  rw [resolve, join, if_pos (by rfl), collapse_plain _ _ hplain]
  rfl

end Path

section Roots

variable {w : World} {place dir : Path}

/-- The directory has something under one of the names of configuration files. -/
def World.Marked (w : World) (dir : Path) : Prop :=
  ∃ name ∈ configurationNames, ∃ node, w.tree.locate (dir.child name) = .ok node

theorem hasMarker_iff : hasMarker w dir = true ↔ w.Marked dir := by
  rw [hasMarker, List.any_eq_true]
  exact exists_congr fun name => and_congr_right fun _ => FileTree.isThere_iff _ _

/-- The directory in which a configuration is looked for: the nearest one, at a place or above it,
that has something under one of the names, or the place itself if there is none. -/
inductive World.IsRoot (w : World) (place : Path) : Path → Prop
  | marked {dir : Path} (habove : dir.Above place) (hmarked : w.Marked dir)
    (hnearest : ∀ other : Path, other.Above place → w.Marked other → other.Above dir) :
    w.IsRoot place dir
  | unmarked (h : ∀ dir : Path, dir.Above place → ¬ w.Marked dir) : w.IsRoot place place

theorem isRoot_iff (w : World) (place dir : Path) :
    w.IsRoot place dir ↔ (place.ancestors.find? (hasMarker w)).getD place = dir := by
  cases hfind : place.ancestors.find? (hasMarker w) with
  | none =>
    have hnone : ∀ dir : Path, dir.Above place → ¬ w.Marked dir := by
      intro dir habove hmarked
      exact List.find?_eq_none.1 hfind dir (Path.mem_ancestors.2 habove) (hasMarker_iff.2 hmarked)
    constructor
    · rintro (⟨habove, hmarked, _⟩ | _)
      · exact absurd hmarked (hnone dir habove)
      · rfl
    · rintro rfl
      exact .unmarked hnone
  | some near =>
    obtain ⟨hnear, before, later, hancestors, hbefore⟩ := List.find?_eq_some_iff_append.1 hfind
    have hmarked := hasMarker_iff.1 hnear
    have habove : near.Above place := Path.mem_ancestors.1 (by simp [hancestors])
    have hnearest : ∀ other : Path, other.Above place → w.Marked other → other.Above near := by
      intro other hother hmarker
      have hmem := Path.mem_ancestors.2 hother
      have hsorted := Path.ancestors_nearest_first place
      rw [hancestors] at hmem hsorted
      rcases List.mem_append.1 hmem with hmem | hmem
      · have hunmarked := hbefore other hmem
        rw [hasMarker_iff.2 hmarker] at hunmarked
        cases hunmarked
      · rcases List.mem_cons.1 hmem with rfl | hmem
        · exact ⟨rfl, List.prefix_refl _⟩
        · exact List.rel_of_pairwise_cons (List.pairwise_append.1 hsorted).2.1 hmem
    constructor
    · rintro (⟨habove', hmarked', hnearest'⟩ | hnone)
      · exact (hnearest' near habove hmarked).antisymm (hnearest dir habove' hmarked')
      · exact absurd hmarked (hnone near habove)
    · rintro rfl
      exact .marked habove hmarked hnearest

/-- From a directory, the root is that of the directory. -/
theorem projectRoot_place {start : Option Path}
    (hstart : w.tree.locate (w.absolute (start.getD w.cwd)) = .ok .directory) :
    projectRoot w start = .ok (((w.resolve (start.getD w.cwd)).ancestors.find?
      (hasMarker w)).getD (w.resolve (start.getD w.cwd))) := by
  have hplace := World.locate_resolve hstart
  obtain ⟨hnul, _⟩ := FileTree.locate_ok hstart
  have hstarted : startPlace w start = .ok (w.resolve (start.getD w.cwd)) := by
    cases start with
    | none => rfl
    | some s => exact (World.follow_eq w s).trans (if_neg (ne_true_of_eq_false hnul))
  have hfile : w.tree.isFile (w.resolve (start.getD w.cwd)) = false := by
    rw [FileTree.isFile, hplace]
  have hthere := (FileTree.isThere_iff w.tree (w.resolve (start.getD w.cwd))).2 ⟨_, hplace⟩
  unfold projectRoot
  simp only [hstarted, hfile, Bool.false_eq_true, if_false]
  cases (w.resolve (start.getD w.cwd)).ancestors.find? (hasMarker w) with
  | some dir => rfl
  | none =>
    cases start with
    | none => rfl
    | some s => exact if_pos hthere

theorem World.IsRoot.plain (h : w.IsRoot (w.resolve place) dir) :
    dir.slashes = 1 ∧ ".." ∉ dir.parts := by
  have hplace : ".." ∉ (w.resolve place).parts := Path.plain_collapse _ _ List.not_mem_nil
  cases h with
  | marked habove _ _ => exact ⟨habove.1, fun hmem => hplace (habove.2.subset hmem)⟩
  | unmarked _ => exact ⟨rfl, hplace⟩

/-- The files that are looked at are named by their full paths. -/
theorem resolve_candidate (h : w.IsRoot (w.resolve place) dir) :
    ∀ file ∈ configurationNames.map dir.child, w.resolve file = file ∧ file.parent = dir := by
  obtain ⟨hslashes, hplain⟩ := h.plain
  refine List.forall_mem_map.2 fun name hname => ?_
  have hnames : ∀ name ∈ configurationNames,
      Path.parse name = ⟨0, [name]⟩ ∧ name ≠ ".." := by decide
  obtain ⟨hparse, hdots⟩ := hnames name hname
  have hchild : dir.child name = ⟨dir.slashes, dir.parts ++ [name]⟩ := by
    rw [Path.child, hparse]
    rfl
  have hfile : ".." ∉ dir.parts ++ [name] := by
    rw [List.mem_append, List.mem_singleton, not_or]
    exact ⟨hplain, Ne.symm hdots⟩
  have hresolve : w.resolve (dir.child name) = dir.child name := by
    rw [hchild]
    exact Path.resolve_plain (p := ⟨dir.slashes, dir.parts ++ [name]⟩) hslashes hfile w.cwd
  refine ⟨hresolve, ?_⟩
  rw [hchild, Path.parent, List.dropLast_concat]

end Roots

namespace LoadedConfiguration

/-- The entry for the library in the shared file. -/
def ownEntry? (document : Value) : Option Value :=
  (valueAt? "tool" document).bind (valueAt? "jslintr")

/-- A file without a configuration: it is none, or it is the shared file and has no entry for the
library. -/
inductive Skipped (w : World) (file : Path) : Prop
  | absent (h : w.tree.isFile (w.absolute file) = false)
  | foreign {document : Value} (hname : file.name = sharedName)
    (hread : readDocument w file = .ok document) (hnone : ownEntry? document = none)

/-- A configuration that cannot be used, and what is said about it: the file cannot be read, or it is
no UTF-8, or no TOML, or the library's entry in the shared file is no table, or its entries are not
those of a configuration. -/
inductive Refused (w : World) (file : Path) : Fault → Prop
  | denied (h : w.tree.locate (w.absolute file) = .ok .locked) :
    Refused w file (.configUnreadable file (.file .denied))
  | undecodable {flaw : Text.Utf8.Flaw} (h : w.readText file = .error (.undecodable flaw)) :
    Refused w file (.configUnreadable file (.undecodable flaw))
  | malformed {text : String} {complaint : Toml.Complaint} {left : Nat}
    (htext : w.readText file = .ok text)
    (hread : Toml.read text.toList = .error (.broken complaint left)) :
    Refused w file (.configUnreadable file
      (.malformed ((Toml.ReadError.broken complaint left).message text.toList)))
  | notTable {document entry : Value} (hname : file.name = sharedName)
    (hread : readDocument w file = .ok document) (hentry : ownEntry? document = some entry)
    (htable : ∀ es, entry ≠ .dict es) : Refused w file (.configInvalid file .notTable)
  | invalid {document payload : Value} {ps : List Problem}
    (hread : readDocument w file = .ok document)
    (hpayload : payload? file document = .ok (some payload))
    (h : Configuration.read payload = .error ps) :
    Refused w file (.configInvalid file (.problems ps))

/-- What is loaded where a file decides: its configuration if it has one that can be used. -/
inductive Decides (w : World) (file : Path) : Except Fault LoadedConfiguration → Prop
  | loaded {c : Configuration} (h : Holds w file c) (hplaced : ¬ c.Unplaced) :
    Decides w file (.ok (ofOrigin w file c))
  | refused {f : Fault} (h : Refused w file f) : Decides w file (.error f)
  | spoiled {f : Fault} (h : Spoils w file f) : Decides w file (.error f)

variable {w : World} {file : Path}

theorem Spoils.faultClass {f : Fault} (h : Spoils w file f) : f.faultClass = .value := by
  cases h <;> rfl

/-- A file that decides by a fault says that it cannot be read or that it is invalid, or it has an
integer that is not converted or a directory of scripts with a NUL. -/
theorem Decides.faultClass {outcome : Except Fault LoadedConfiguration}
    (h : Decides w file outcome) (f : Fault) (hf : outcome = .error f) :
    f.faultClass = .configRead ∨ f.faultClass = .invalidConfigFile ∨
      Spoils w file f ∧ f.faultClass = .value := by
  cases h with
  | loaded _ _ => cases hf
  | refused hrefused =>
    cases hf
    cases hrefused with
    | denied _ => exact .inl rfl
    | undecodable _ => exact .inl rfl
    | malformed _ _ => exact .inl rfl
    | notTable _ _ _ _ => exact .inr (.inl rfl)
    | invalid _ _ _ => exact .inr (.inl rfl)
  | spoiled hspoils =>
    cases hf
    exact .inr (.inr ⟨hspoils, hspoils.faultClass⟩)

/-- What has a document is a file. -/
theorem isFile_of_readDocument {document : Value} (h : readDocument w file = .ok document) :
    w.tree.isFile (w.absolute file) = true := by
  rw [readDocument, World.readText, World.readScriptText] at h
  cases hnul : (w.absolute file).hasNul with
  | true =>
    rw [hnul] at h
    cases h
  | false =>
    cases hread : w.tree.read (w.absolute file) with
    | ok content => exact (FileTree.isFile_iff _ _).2 (.inl ⟨content, hread⟩)
    | error issue =>
      rw [hnul, hread] at h
      cases h

theorem payload?_shared (hname : file.name = sharedName) (document : Value) :
    payload? file document = match ownEntry? document with
      | none => .ok none
      | some (.dict es) => .ok (some (.dict es))
      | some _ => .error (.configInvalid file .notTable) := by
  rw [payload?, hname]
  rfl

theorem ofFile_skipped (h : Skipped w file) : ofFile w file = (.ok none, w) := by
  cases h with
  | absent hfile =>
    rw [ofFile, hfile]
    rfl
  | foreign hname hread hnone =>
    rw [ofFile_document (isFile_of_readDocument hread) hread, payload?_shared hname, hnone]

theorem not_skipped {outcome : Except Fault LoadedConfiguration}
    (h : (ofFile w file).1 = outcome.map some) : ¬ Skipped w file := by
  intro hskipped
  rw [ofFile_skipped hskipped] at h
  cases outcome <;> cases h

/-- A file without a text cannot be read, or is no UTF-8. -/
theorem refused_of_readText {f : Fault} (hfile : w.tree.isFile (w.absolute file) = true)
    (h : w.readText file = .error f) :
    Refused w file (.configUnreadable file (.file .denied)) ∧ f = .file .denied file ∨
      ∃ flaw, Refused w file (.configUnreadable file (.undecodable flaw)) ∧
        f = .undecodable flaw := by
  cases World.readText_error h with
  | nowhere hnul =>
    rw [hasNul_file hfile] at hnul
    cases hnul
  | unread _ hread =>
    obtain ⟨content, hcontent⟩ | hlocked := (FileTree.isFile_iff _ _).1 hfile
    · rw [hcontent] at hread
      cases hread
    · rw [FileTree.read_locked hlocked] at hread
      cases hread
      exact .inl ⟨.denied hlocked, rfl⟩
  | garbled _ _ => exact .inr ⟨_, .undecodable h, rfl⟩

theorem decides_of_readDocument {f : Fault} (hfile : w.tree.isFile (w.absolute file) = true)
    (h : readDocument w file = .error f) : Decides w file (.error f) := by
  cases htext : w.readText file with
  | error e =>
    rw [readDocument, htext] at h
    obtain ⟨hrefused, rfl⟩ | ⟨flaw, hrefused, rfl⟩ := refused_of_readText hfile htext
    · cases h
      exact .refused hrefused
    · cases h
      exact .refused hrefused
  | ok text =>
    rw [readDocument, htext] at h
    cases hread : Toml.read text.toList with
    | ok v =>
      simp only [hread] at h
      cases h
    | error e =>
      simp only [hread] at h
      cases e with
      | broken complaint left =>
        cases h
        exact .refused (.malformed htext hread)
      | tooManyDigits n =>
        cases h
        exact .spoiled (.digits hfile htext hread)

theorem payload?_cases (file : Path) (document : Value) :
    (file.name = sharedName ∧ ownEntry? document = none ∧ payload? file document = .ok none) ∨
    (file.name = sharedName ∧ ∃ entry, ownEntry? document = some entry ∧
      (∀ es, entry ≠ .dict es) ∧ payload? file document = .error (.configInvalid file .notTable)) ∨
    ∃ payload, payload? file document = .ok (some payload) := by
  by_cases hname : file.name = sharedName
  · have hpayload := payload?_shared hname document
    cases hentry : ownEntry? document with
    | none =>
      rw [hentry] at hpayload
      exact .inl ⟨hname, rfl, hpayload⟩
    | some entry =>
      rw [hentry] at hpayload
      cases entry with
      | dict es => exact .inr (.inr ⟨_, hpayload⟩)
      | _ => exact .inr (.inl ⟨hname, _, rfl, fun es h => Value.noConfusion h, hpayload⟩)
  · refine .inr (.inr ⟨document, ?_⟩)
    rw [payload?, if_pos (bne_iff_ne.2 hname)]

/-- A file is skipped, and nothing happens, or it decides. -/
theorem ofFile_cases (w : World) (file : Path) :
    (Skipped w file ∧ ofFile w file = (.ok none, w)) ∨
    ∃ outcome, Decides w file outcome ∧ (ofFile w file).1 = outcome.map some := by
  cases hfile : w.tree.isFile (w.absolute file) with
  | false => exact .inl ⟨.absent hfile, ofFile_skipped (.absent hfile)⟩
  | true =>
    cases hread : readDocument w file with
    | error f =>
      refine .inr ⟨.error f, decides_of_readDocument hfile hread, ?_⟩
      rw [ofFile_undocumented hfile hread]
      rfl
    | ok document =>
      have hdocument := ofFile_document hfile hread
      obtain ⟨hname, hentry, hpayload⟩ | ⟨hname, entry, hentry, htable, hpayload⟩ |
          ⟨payload, hpayload⟩ := payload?_cases file document
      · have hskipped : Skipped w file := .foreign hname hread hentry
        exact .inl ⟨hskipped, ofFile_skipped hskipped⟩
      · refine .inr ⟨_, .refused (.notTable hname hread hentry htable), ?_⟩
        rw [hdocument, hpayload]
        rfl
      · rw [hpayload] at hdocument
        cases hconfiguration : Configuration.read payload with
        | ok c =>
          have hholds : Holds w file c := ⟨document, payload, hread, hpayload, hconfiguration⟩
          by_cases hplaced : c.Unplaced
          · refine .inr ⟨_, .spoiled (.directory hfile hholds hplaced), ?_⟩
            simp only [hdocument, ofPayload, hconfiguration, World.cwd_log,
              Configuration.settingsAt_unplaced hplaced]
            rfl
          · refine .inr ⟨_, .loaded hholds hplaced, ?_⟩
            simp only [hdocument, ofPayload, hconfiguration, World.cwd_log, World.resolve_log,
              Configuration.settingsAt_placed (hasNul_file hfile) hplaced]
            rfl
        | error ps =>
          refine .inr ⟨_, .refused (.invalid hread hpayload hconfiguration), ?_⟩
          simp only [hdocument, ofPayload, hconfiguration]
          rfl

/-- The first file that is not skipped decides. -/
theorem ofFiles_decided (w : World) (files : List Path) :
    ((∀ file ∈ files, Skipped w file) ∧ (ofFiles w files).1 = .ok standard) ∨
    ∃ before file later, files = before ++ file :: later ∧ (∀ f ∈ before, Skipped w f) ∧
      ¬ Skipped w file ∧ Decides w file (ofFiles w files).1 := by
  induction files with
  | nil => exact .inl ⟨by simp, rfl⟩
  | cons file files ih =>
    obtain ⟨hskipped, hfile⟩ | ⟨outcome, houtcome, hfile⟩ := ofFile_cases w file
    · have hrest : ofFiles w (file :: files) = ofFiles w files := by
        rw [ofFiles, hfile]
      rw [hrest]
      obtain ⟨hall, hstandard⟩ | ⟨before, f, later, rfl, hbefore, hf⟩ := ih
      · exact .inl ⟨List.forall_mem_cons.2 ⟨hskipped, hall⟩, hstandard⟩
      · exact .inr ⟨file :: before, f, later, rfl, List.forall_mem_cons.2 ⟨hskipped, hbefore⟩, hf⟩
    · refine .inr ⟨[], file, files, rfl, by simp, not_skipped hfile, ?_⟩
      have hall : (ofFiles w (file :: files)).1 = outcome := by
        rw [ofFiles]
        cases hresult : ofFile w file with
        | mk r w' =>
          rw [hresult] at hfile
          obtain rfl : r = outcome.map some := hfile
          cases outcome <;> rfl
      rwa [hall]

end LoadedConfiguration

open LoadedConfiguration

/-- From a directory, a configuration is looked for in one directory only: the nearest, at that
place or above it, that has anything under one of the names. There the names are gone through in
order, and the first file that is not skipped decides, whatever the others hold. It decides by its
configuration, named by its full path, or by a fault that says that it cannot be used; only an
integer that is not converted and a directory of scripts with a NUL are told in another way. If all
are skipped, the standard settings hold, without options and without a path. -/
theorem loadConfiguration_discovered {w : World} {start : Option Path}
    (hstart : w.tree.locate (w.absolute (start.getD w.cwd)) = .ok .directory) :
    let outcome := (loadConfiguration w none start).1
    ∃ root, (∀ dir, w.IsRoot (w.resolve (start.getD w.cwd)) dir ↔ dir = root) ∧
      (∀ file ∈ configurationNames.map root.child, w.resolve file = file ∧ file.parent = root) ∧
      ((∀ file ∈ configurationNames.map root.child, Skipped w file) ∧ outcome = .ok .standard ∨
      ∃ before file later, configurationNames.map root.child = before ++ file :: later ∧
        (∀ f ∈ before, Skipped w f) ∧ ¬ Skipped w file ∧ Decides w file outcome ∧
        ∀ f, outcome = .error f → f.faultClass = .configRead ∨ f.faultClass = .invalidConfigFile ∨
          Spoils w file f ∧ f.faultClass = .value) := by
  intro outcome
  obtain ⟨root, hroot⟩ : ∃ root, ((w.resolve (start.getD w.cwd)).ancestors.find?
      (hasMarker w)).getD (w.resolve (start.getD w.cwd)) = root := ⟨_, rfl⟩
  have hload : outcome = (ofFiles w (configurationNames.map root.child)).1 := by
    have hproject := projectRoot_place hstart
    rw [hroot] at hproject
    simp only [outcome, loadConfiguration, hproject]
  refine ⟨root, fun dir => ?_, resolve_candidate ((isRoot_iff _ _ _).2 hroot), ?_⟩
  · rw [isRoot_iff, hroot, eq_comm]
  · rw [hload]
    obtain hall | ⟨before, file, later, hfiles, hbefore, hskipped, hdecides⟩ :=
      ofFiles_decided w (configurationNames.map root.child)
    · exact .inl hall
    · exact .inr ⟨before, file, later, hfiles, hbefore, hskipped, hdecides, hdecides.faultClass⟩

def shadowedPlace : Path := ⟨0, ["a", "b"]⟩

/-- A directory with a configuration, one below it in which a directory and an empty shared file
take the names, and one below that. -/
def shadowedWorld : World :=
  ⟨⟨1, ["home"]⟩, ⟨1, ["lib"]⟩, [],
    ⟨[(["home"], .directory), (["home", "jslintr.toml"], .file (.text "engine='jslint'")),
      (["home", "a"], .directory), (["home", "a", "jslintr.toml"], .directory),
      (["home", "a", "pyproject.toml"], .file (.bytes [])), (["home", "a", "b"], .directory)]⟩,
    [], []⟩

theorem loadConfiguration_shadowed :
    shadowedWorld.tree.locate (shadowedWorld.absolute shadowedPlace) = .ok .directory ∧
    (loadConfiguration shadowedWorld none (some shadowedPlace)).1 = .ok .standard := by
  have hstart : shadowedWorld.tree.locate (shadowedWorld.absolute shadowedPlace) =
      .ok .directory := rfl
  have hdiscovered := @loadConfiguration_discovered shadowedWorld (some shadowedPlace) hstart
  obtain ⟨root, hroot, _, houtcome⟩ := hdiscovered
  obtain rfl : ⟨1, ["home", "a"]⟩ = root :=
    (hroot _).1 ((isRoot_iff _ _ _).2 (by decide +kernel))
  have hfiles : configurationNames.map (Path.child ⟨1, ["home", "a"]⟩) =
      [⟨1, ["home", "a", "jslintr.toml"]⟩, ⟨1, ["home", "a", ".jslintr.toml"]⟩,
        ⟨1, ["home", "a", "pyproject.toml"]⟩] := by
    decide +kernel
  have hskipped : ∀ file ∈ configurationNames.map (Path.child ⟨1, ["home", "a"]⟩),
      Skipped shadowedWorld file := by
    rw [hfiles, List.forall_mem_cons, List.forall_mem_cons, List.forall_mem_singleton]
    have hshared : readDocument shadowedWorld ⟨1, ["home", "a", "pyproject.toml"]⟩ =
        .ok (.dict []) := rfl
    exact ⟨.absent rfl, .absent rfl, .foreign rfl hshared rfl⟩
  obtain ⟨_, hstandard⟩ | ⟨before, file, later, hsplit, _, hdecides, _⟩ := houtcome
  · exact ⟨hstart, hstandard⟩
  · refine absurd (hskipped file ?_) hdecides
    rw [hsplit]
    exact List.mem_append_right _ List.mem_cons_self

section Unconverted

open Toml Text

theorem moreDigits_replicate (k : Nat) :
    moreDigits Char.isDigit (List.replicate k '1') = (List.replicate k '1', []) := by
  induction k with
  | zero => rfl
  | succ k ih => simp [List.replicate_succ, moreDigits, ih]

/-- A number of ones. There are enough of them to be no date. -/
theorem readPlain_replicate {k : Nat} (h : Digits.limit < k + 5) :
    readPlain (List.replicate (k + 5) '1') = .error (.tooManyDigits (k + 5)) := by
  have hmoment : readMoment? (List.replicate (k + 5) '1') = none := rfl
  rw [List.replicate_succ] at hmoment ⊢
  have hwhole : readWhole? ('1' :: List.replicate (k + 4) '1') =
      some ('1' :: List.replicate (k + 4) '1', []) := by
    simp [readWhole?, digits?, moreDigits_replicate]
  have hnumber : readNumber? ('1' :: List.replicate (k + 4) '1') =
      some (.error (.tooManyDigits (k + 5))) := by
    simp [readNumber?, readBased?, readSign, hwhole, readDecimal, readFraction?, readExponent?, h]
  rw [readPlain, hmoment, hnumber]
  all_goals simp

/-- A document that starts with a name is read no further than its first value if that has an
error. -/
theorem read_error {c : Char} {rest : List Char} {e : ReadError} (hc : isKeyStart c = true)
    (h : ∀ fuel, readPair (fuel + 2) (c :: rest) = .error e) :
    Toml.read (c :: rest) = .error e := by
  have hne : ∀ d, isKeyStart d = false → c ≠ d := by
    rintro d hd rfl
    rw [hc] at hd
    cases hd
  have hblank : isBlankChar c = false := by
    simp [isBlankChar, hne ' ' (by decide), hne '\t' (by decide)]
  have hblanks : skipBlanks (c :: rest) = c :: rest :=
    List.dropWhile_cons_of_neg (by rw [hblank]; exact Bool.false_ne_true)
  have hstatement : ∀ d, readStatement d (c :: rest) = .error e := by
    intro d
    rw [readStatement, if_pos hc, h]
    · exact fun _ hbracket => absurd hbracket (hne '[' (by decide))
    · exact fun hbracket => absurd hbracket (hne '[' (by decide))
    · exact fun hcomment => absurd hcomment (hne '#' (by decide))
  have hstatements : ∀ fuel d, readStatements (fuel + 1) d (c :: rest) = .error e := by
    intro fuel d
    rw [readStatements, hblanks]
    split
    · rename_i heq
      cases heq
    · rename_i heq
      exact absurd (List.cons.inj heq).1 (hne '\n' (by decide))
    · rw [hstatement]
  rw [Toml.read, hstatements]

/-- An option that is a number of ones. -/
def onesText (k : Nat) : List Char := "options.n".toList ++ '=' :: List.replicate k '1'

theorem read_onesText {k : Nat} (h : Digits.limit < k + 5) :
    Toml.read (onesText (k + 5)) = .error (.tooManyDigits (k + 5)) := by
  refine read_error (by decide) fun fuel => ?_
  have hkey : readKey (onesText (k + 5)) =
      .ok (["options", "n"], '=' :: List.replicate (k + 5) '1') := rfl
  have hblanks : skipBlanks (List.replicate (k + 5) '1') = List.replicate (k + 5) '1' := rfl
  have hvalue : readValue (fuel + 1) (List.replicate (k + 5) '1') =
      readPlain (List.replicate (k + 5) '1') := by
    rw [List.replicate_succ, readValue]
    all_goals simp
  have hpair : readPair (fuel + 2) (onesText (k + 5)) = .error (.tooManyDigits (k + 5)) := by
    rw [readPair, hkey]
    simp only [hblanks, hvalue, readPlain_replicate h]
  exact hpair

theorem encode_ascii {cs : List Char} (h : ∀ c ∈ cs, c.toNat < 0x80) :
    Utf8.encode cs = cs.map fun c => c.toNat.toUInt8 := by
  rw [Utf8.encode, List.map_eq_flatMap, List.flatMap_def, List.flatMap_def]
  refine congrArg List.flatten (List.map_congr_left fun c hc => ?_)
  exact if_pos (h c hc)

theorem decodeAll_ascii (cs : List Char) (h : ∀ c ∈ cs, c.toNat < 0x80) : ∀ pos,
    Utf8.decodeAll cs.length pos (cs.map fun c => c.toNat.toUInt8) = .ok cs := by
  induction cs with
  | nil => exact fun _ => rfl
  | cons c cs ih =>
    intro pos
    rw [List.forall_mem_cons] at h
    have hbyte : c.toNat.toUInt8.toNat = c.toNat := by
      have hsmall := h.1
      simp
      omega
    have hone : ∀ rest, Utf8.decodeOne c.toNat rest = .ok (c, rest) := by
      intro rest
      simp [Utf8.decodeOne, Utf8.sequenceLength, h.1]
    simp only [List.length_cons, List.map_cons, Utf8.decodeAll, hbyte, hone, ih h.2]

/-- Texts of plain characters are read back. -/
theorem decode_ascii (cs : List Char) (h : ∀ c ∈ cs, c.toNat < 0x80) :
    Utf8.decode (Utf8.encode cs) = .ok cs := by
  rw [Utf8.decode, encode_ascii h, List.length_map]
  exact decodeAll_ascii cs h 0

theorem unifyNewlines_of_not_mem {cs : List Char} (h : '\r' ∉ cs) : unifyNewlines cs = cs := by
  induction cs with
  | nil => rfl
  | cons c cs ih =>
    rw [List.mem_cons, not_or] at h
    rw [unifyNewlines.eq_3 c cs fun _ hcr => absurd hcr.symm h.1, if_neg (Ne.symm h.1), ih h.2]

def onesFile : Path := ⟨1, ["home", "jslintr.toml"]⟩

/-- A directory with a configuration that has a number of ones as an option. -/
def onesWorld (k : Nat) : World :=
  ⟨⟨1, ["home"]⟩, ⟨1, ["lib"]⟩, [],
    ⟨[(["home"], .directory), (onesFile.parts, .file (.bytes (Utf8.encode (onesText k))))]⟩, [], []⟩

theorem read_onesFile (k : Nat) :
    (onesWorld k).tree.read ((onesWorld k).absolute onesFile) =
      .ok (.bytes (Utf8.encode (onesText k))) := rfl

theorem readText_ones (k : Nat) :
    (onesWorld k).readText onesFile = .ok (String.ofList (onesText k)) := by
  have hchars : ∀ c ∈ onesText k, c ∈ "options.n=1".toList := by
    intro c hc
    rcases List.mem_append.1 hc with hname | hc
    · exact List.mem_append_left ['=', '1'] hname
    · rcases List.mem_cons.1 hc with rfl | hc
      · decide
      · rw [List.eq_of_mem_replicate hc]
        decide
  have hascii : ∀ c ∈ "options.n=1".toList, c.toNat < 0x80 := by simp
  have hdecode : Utf8.decode (Utf8.encode (onesText k)) = .ok (onesText k) :=
    decode_ascii _ fun c hc => hascii c (hchars c hc)
  have hunify : unifyNewlines (onesText k) = onesText k :=
    unifyNewlines_of_not_mem fun h => absurd (hchars _ h) (by decide)
  have hnul : ((onesWorld k).absolute onesFile).hasNul = false := rfl
  simp only [World.readText, World.readScriptText, hnul, read_onesFile, ScriptText.ofContent,
    hdecode, hunify, Bool.false_eq_true, if_false]

theorem loadConfiguration_onesWorld {k : Nat} (h : Digits.limit < k + 5) :
    (loadConfiguration (onesWorld (k + 5)) none none).1 = .error (.tooManyDigits (k + 5)) := by
  have hroot : projectRoot (onesWorld (k + 5)) none = .ok ⟨1, ["home"]⟩ := rfl
  have hfiles : configurationNames.map (Path.child ⟨1, ["home"]⟩) =
      onesFile :: (configurationNames.map (Path.child ⟨1, ["home"]⟩)).tail := by
    decide +kernel
  have hread : Toml.read (String.ofList (onesText (k + 5))).toList =
      .error (.tooManyDigits (k + 5)) := by
    rw [String.toList_ofList]
    exact read_onesText h
  have hfile : (onesWorld (k + 5)).tree.isFile ((onesWorld (k + 5)).absolute onesFile) = true :=
    (FileTree.isFile_iff _ _).2 (.inl ⟨_, read_onesFile (k + 5)⟩)
  obtain ⟨w', hspoiled⟩ := ofFile_spoils (.digits hfile (readText_ones _) hread)
  simp only [loadConfiguration, hroot]
  rw [hfiles, ofFiles, hspoiled]

/-- A configuration that cannot be used because of an integer with one digit too many is told in
another way than all others. -/
theorem loadConfiguration_unconverted :
    (onesWorld 4301).tree.locate ((onesWorld 4301).absolute (onesWorld 4301).cwd) =
      .ok .directory ∧
    (loadConfiguration (onesWorld 4301) none none).1 = .error (.tooManyDigits 4301) ∧
    (Fault.tooManyDigits 4301).faultClass = .value :=
  ⟨rfl, loadConfiguration_onesWorld (k := 4296) (by decide), rfl⟩

end Unconverted

end ScriptLint
