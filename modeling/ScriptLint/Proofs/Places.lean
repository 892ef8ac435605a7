import ScriptLint.World

/-!
# ScriptLint.Proofs.Places

Places in a tree of files, and the paths that lead there. A path that can be followed leads to the
place that its text names when double dots are taken back, but the text may name a place that the
path does not lead to: a directory that is not there cannot be left again.

* `follow_append`: a path is followed part by part
* `follow_place`: where a path leads
* `isFile_iff`: files are what is read or refused
* `World.follow_eq`: which paths lead anywhere
* `World.locate_resolve`: what a path leads to is also found at the path made absolute
* `World.locate_child`: when both find the same below a directory
-/

namespace ScriptLint

namespace FileTree

variable {t : FileTree} {here place : List String}

theorem follow_append (t : FileTree) (ps qs : List String) : ∀ here : List String,
    follow t here (ps ++ qs) = (follow t here ps).bind fun place => follow t place qs := by
  induction ps with
  | nil => intro here; rfl
  | cons p ps ih =>
    intro here
    rw [List.cons_append, follow, follow]
    split
    · rfl
    · rfl
    · rfl
    · split
      · exact ih _
      · split
        · rfl
        · exact ih _

/-- A place that is reached by its own parts. -/
structure IsPlace (t : FileTree) (here : List String) : Prop where
  plain : ".." ∉ here
  reached : follow t [] here = .ok here

theorem isPlace_nil (t : FileTree) : IsPlace t [] := ⟨List.not_mem_nil, rfl⟩

/-- One part that is no double dot leads from a directory to what it holds under that name. -/
theorem follow_plain {p : String} (hp : p ≠ "..") :
    follow t here [p] = .ok place ↔
      t.node? here = some .directory ∧ (t.node? (here ++ [p])).isSome = true ∧
        place = here ++ [p] := by
  rw [follow]
  cases hnode : t.node? here with
  | none => simp
  | some n =>
    cases n with
    | file c => simp
    | locked => simp
    | directory =>
      simp only [hp, if_false]
      cases hbelow : t.node? (here ++ [p]) with
      | none => simp
      | some m => simp [follow, eq_comm]

theorem IsPlace.child {p : String} (h : IsPlace t here) (hp : p ≠ "..")
    (hfollow : follow t here [p] = .ok place) : IsPlace t place := by
  obtain ⟨_, _, rfl⟩ := (follow_plain hp).1 hfollow
  refine ⟨?_, ?_⟩
  · rw [List.mem_append, List.mem_singleton]
    rintro (hmem | heq)
    · exact h.plain hmem
    · exact hp heq.symm
  · rw [follow_append, h.reached]
    exact hfollow

theorem IsPlace.parent (h : IsPlace t here) : IsPlace t here.dropLast := by
  obtain rfl | ⟨front, last, rfl⟩ := List.eq_nil_or_concat here
  · exact h
  · rw [List.concat_eq_append] at h ⊢
    rw [List.dropLast_concat]
    obtain ⟨hplain, hreached⟩ := h
    rw [List.mem_append, List.mem_singleton, not_or] at hplain
    rw [follow_append] at hreached
    cases hfront : follow t [] front with
    | error e =>
      rw [hfront] at hreached
      cases hreached
    | ok place =>
      rw [hfront] at hreached
      obtain ⟨_, _, heq⟩ := (follow_plain (Ne.symm hplain.2)).1 hreached
      rw [← (List.append_inj' heq rfl).1] at hfront
      exact ⟨hplain.1, hfront⟩

/-- A path leads from a place to the place that its text names. -/
theorem follow_place (ps : List String) : ∀ {here place : List String}, IsPlace t here →
    follow t here ps = .ok place → IsPlace t place ∧ Path.collapse here.reverse ps = place := by
  induction ps with
  | nil =>
    intro here place hhere h
    cases h
    exact ⟨hhere, List.reverse_reverse here⟩
  | cons p ps ih =>
    intro here place hhere h
    by_cases hp : p = ".."
    · rw [follow] at h
      split at h
      · cases h
      · cases h
      · cases h
      · rw [if_pos hp] at h
        obtain ⟨hplace, hcollapse⟩ := ih hhere.parent h
        refine ⟨hplace, ?_⟩
        rw [Path.collapse, if_pos hp, ← hcollapse, List.tail_reverse]
    · rw [← List.singleton_append, follow_append] at h
      cases hfirst : follow t here [p] with
      | error e =>
        rw [hfirst] at h
        cases h
      | ok next =>
        rw [hfirst] at h
        have hnext := hhere.child hp hfirst
        obtain ⟨_, _, rfl⟩ := (follow_plain hp).1 hfirst
        obtain ⟨hplace, hcollapse⟩ := ih hnext h
        refine ⟨hplace, ?_⟩
        rw [Path.collapse, if_neg hp, ← hcollapse, List.reverse_append]
        rfl

/-- What lies at a place. -/
theorem locate_of_follow {p : Path} {n : Node} (hnul : p.hasNul = false)
    (h : follow t [] p.parts = .ok place) : t.locate p = .ok n ↔ t.node? place = some n := by
  rw [locate, hnul, h]
  simp only [Bool.false_eq_true, if_false]
  cases t.node? place <;> simp

/-- Something is at a place only if its path has no NUL and can be followed. -/
theorem locate_ok {p : Path} {n : Node} (h : t.locate p = .ok n) :
    p.hasNul = false ∧ ∃ place, follow t [] p.parts = .ok place ∧ t.node? place = some n := by
  cases hnul : p.hasNul with
  | true =>
    rw [locate, if_pos hnul] at h
    cases h
  | false =>
    refine ⟨rfl, ?_⟩
    cases hfollow : follow t [] p.parts with
    | error e =>
      rw [locate, hnul, hfollow] at h
      cases h
    | ok place => exact ⟨place, rfl, (locate_of_follow hnul hfollow).1 h⟩

/-- Files are what is read or refused. -/
theorem isFile_iff (t : FileTree) (p : Path) :
    t.isFile p = true ↔ (∃ content, t.read p = .ok content) ∨ t.locate p = .ok .locked := by
  rw [isFile, read]
  cases t.locate p with
  | error e => simp
  | ok n => cases n <;> simp

theorem isFile_iff_locate (t : FileTree) (p : Path) :
    t.isFile p = true ↔ ∃ n, t.locate p = .ok n ∧ n ≠ .directory := by
  rw [isFile]
  cases t.locate p with
  | error e => simp
  | ok n => cases n <;> simp

theorem read_eq_ok_iff {p : Path} {content : Content} :
    t.read p = .ok content ↔ t.locate p = .ok (.file content) := by
  rw [read]
  cases t.locate p with
  | error e => simp
  | ok n => cases n <;> simp

theorem read_locked {p : Path} (h : t.locate p = .ok .locked) : t.read p = .error .denied := by
  rw [read, h]

theorem isThere_iff (t : FileTree) (p : Path) : t.isThere p = true ↔ ∃ n, t.locate p = .ok n := by
  rw [isThere]
  cases t.locate p <;> simp [Except.isOk, Except.toBool]

end FileTree

namespace Path

theorem hasNul_eq_false_iff {p : Path} :
    p.hasNul = false ↔ ∀ part ∈ p.parts, '\x00' ∉ part.toList := by
  simp [hasNul]

/-- Taking back double dots leaves only parts that were there. -/
theorem mem_collapse (ps : List String) : ∀ done : List String,
    ∀ part ∈ collapse done ps, part ∈ done ∨ part ∈ ps := by
  induction ps with
  | nil =>
    intro done part hpart
    exact .inl (List.mem_reverse.1 hpart)
  | cons p ps ih =>
    intro done part hpart
    rw [collapse] at hpart
    split at hpart
    · rcases ih _ part hpart with h | h
      · exact .inl (List.mem_of_mem_tail h)
      · exact .inr (List.mem_cons_of_mem _ h)
    · rcases ih _ part hpart with h | h
      · rcases List.mem_cons.1 h with rfl | h
        · exact .inr List.mem_cons_self
        · exact .inl h
      · exact .inr (List.mem_cons_of_mem _ h)

theorem hasNul_resolve {p cwd : Path} (h : (cwd.join p).hasNul = false) :
    (p.resolve cwd).hasNul = false := by
  rw [hasNul_eq_false_iff] at h ⊢
  intro part hpart
  rcases mem_collapse _ _ part hpart with hmem | hmem
  · cases hmem
  · exact h part hmem

theorem join_absolute {p q : Path} (h : q.isAbsolute = true) : p.join q = q := if_pos h

theorem hasNul_join (p q : Path) :
    (p.join q).hasNul = if q.isAbsolute then q.hasNul else (p.hasNul || q.hasNul) := by
  rw [join]
  split
  · rfl
  · exact List.any_append

theorem hasNul_parent {p cwd : Path} (h : (cwd.join p).hasNul = false) :
    (cwd.join p.parent).hasNul = false := by
  have hparent : p.hasNul = false → p.parent.hasNul = false := fun hp =>
    hasNul_eq_false_iff.2 fun part hpart =>
      hasNul_eq_false_iff.1 hp part (List.dropLast_subset _ hpart)
  rw [hasNul_join] at h
  rw [hasNul_join, show p.parent.isAbsolute = p.isAbsolute from rfl]
  cases hslashes : p.isAbsolute with
  | true =>
    rw [hslashes] at h
    exact hparent h
  | false =>
    rw [hslashes] at h
    obtain ⟨hcwd, hp⟩ := Bool.or_eq_false_iff.1 h
    exact Bool.or_eq_false_iff.2 ⟨hcwd, hparent hp⟩

/-- Taking back double dots of a path that is followed by a plain part. -/
theorem collapse_concat {q : String} (hq : q ≠ "..") (ps : List String) : ∀ done : List String,
    collapse done (ps ++ [q]) = collapse done ps ++ [q] := by
  induction ps with
  | nil =>
    intro done
    rw [List.nil_append, collapse, collapse, if_neg hq, collapse, List.reverse_cons]
  | cons p ps ih =>
    intro done
    rw [List.cons_append, collapse, collapse]
    split
    · exact ih _
    · exact ih _

end Path

namespace World

open FileTree

variable {w : World} {p : Path} {n : Node}

@[simp] theorem cwd_log (w : World) (records : Log.Journal) : (w.log records).cwd = w.cwd := rfl

@[simp] theorem resolve_log (w : World) (records : Log.Journal) (p : Path) :
    (w.log records).resolve p = w.resolve p := rfl

theorem follow_eq (w : World) (p : Path) :
    w.follow p = if (w.absolute p).hasNul then .error .nulInPath else .ok (w.resolve p) := by
  rw [follow, Path.follow?, absolute]
  cases (w.cwd.join p).hasNul <;> rfl

theorem absolute_child (w : World) (p : Path) (name : String) :
    (w.absolute (p.join ⟨0, [name]⟩)).parts = (w.absolute p).parts ++ [name] := by
  have hjoin : p.join ⟨0, [name]⟩ = ⟨p.slashes, p.parts ++ [name]⟩ := rfl
  have hslashes : (⟨p.slashes, p.parts ++ [name]⟩ : Path).isAbsolute = p.isAbsolute := rfl
  rw [hjoin, absolute, absolute, Path.join, Path.join, hslashes]
  split
  · rfl
  · exact (List.append_assoc _ _ _).symm

theorem resolve_child (w : World) (p : Path) {name : String} (hname : name ≠ "..") :
    (w.resolve (p.join ⟨0, [name]⟩)).parts = (w.resolve p).parts ++ [name] := by
  have hparts := absolute_child w p name
  rw [resolve, Path.resolve]
  rw [absolute] at hparts
  rw [hparts]
  exact Path.collapse_concat hname _ _

/-- A path that leads to something is an absolute path to it when double dots are taken back. -/
theorem locate_resolve (h : w.tree.locate (w.absolute p) = .ok n) :
    w.tree.locate (w.resolve p) = .ok n := by
  obtain ⟨hnul, place, hfollow, hnode⟩ := locate_ok h
  obtain ⟨hplace, hcollapse⟩ := follow_place _ (isPlace_nil w.tree) hfollow
  have hresolve : w.tree.follow [] (w.resolve p).parts = .ok place := by
    rw [show (w.resolve p).parts = place from hcollapse, hplace.reached]
  exact (locate_of_follow (Path.hasNul_resolve hnul) hresolve).2 hnode

/-- What holds something is there. -/
theorem isThere_parent {name : String} (hname : name ≠ "..")
    (h : w.tree.locate (w.absolute (p.join ⟨0, [name]⟩)) = .ok n) :
    w.tree.isThere (w.absolute p) = true := by
  obtain ⟨hnul, below, hbelow, _⟩ := locate_ok h
  have habove : (w.absolute p).hasNul = false := by
    rw [Path.hasNul_eq_false_iff, absolute_child] at hnul
    exact Path.hasNul_eq_false_iff.2 fun part hpart =>
      hnul part (List.mem_append_left _ hpart)
  rw [absolute_child, follow_append] at hbelow
  cases hfollow : w.tree.follow [] (w.absolute p).parts with
  | error e =>
    rw [hfollow] at hbelow
    cases hbelow
  | ok place =>
    rw [hfollow] at hbelow
    obtain ⟨hdirectory, _, _⟩ := (follow_plain hname).1 hbelow
    exact (isThere_iff _ _).2 ⟨_, (locate_of_follow habove hfollow).2 hdirectory⟩

/-- A path below a directory finds something as it is written if the directory is there and the
absolute path finds the same. -/
theorem locate_child {name : String} (hname : name ≠ "..") :
    w.tree.locate (w.absolute (p.join ⟨0, [name]⟩)) = .ok n ↔
      w.tree.isThere (w.absolute p) = true ∧
        w.tree.locate (w.resolve (p.join ⟨0, [name]⟩)) = .ok n := by
  refine ⟨fun h => ⟨isThere_parent hname h, locate_resolve h⟩, ?_⟩
  rintro ⟨hthere, h⟩
  obtain ⟨m, hm⟩ := (isThere_iff _ _).1 hthere
  obtain ⟨habove, place, hfollow, _⟩ := locate_ok hm
  obtain ⟨hbelow, _⟩ := locate_ok h
  obtain ⟨hplace, hcollapse⟩ := follow_place _ (isPlace_nil w.tree) hfollow
  have hparts := absolute_child w p name
  have hnamed : w.tree.follow [] (w.absolute (p.join ⟨0, [name]⟩)).parts =
      w.tree.follow [] (w.resolve (p.join ⟨0, [name]⟩)).parts := by
    rw [resolve_child w p hname, hparts, follow_append, follow_append, hfollow]
    rw [show (w.resolve p).parts = place from hcollapse, hplace.reached]
  have hnul : (w.absolute (p.join ⟨0, [name]⟩)).hasNul = false := by
    refine Path.hasNul_eq_false_iff.2 fun part hpart => ?_
    rw [hparts] at hpart
    rcases List.mem_append.1 hpart with hpart | hpart
    · exact Path.hasNul_eq_false_iff.1 habove part hpart
    · refine Path.hasNul_eq_false_iff.1 hbelow part ?_
      rw [resolve_child w p hname]
      exact List.mem_append_right _ hpart
  rw [locate, hbelow] at h
  rw [locate, hnul, hnamed]
  exact h

end World

end ScriptLint
