import ScriptLint.Proofs.Stores

/-!
# ScriptLint.Proofs.OrderedStores

A store is one mapping in the order of first storage, although it keeps its values in two places.

* `Access`, `Store.after`: what callers do with a store
* `Store.after_run`: after any run, the snapshot is the first one with the writes laid over it
* `Store.after_ordered`: what every way of reading gives after a run
* `Store.create_layers`: the first snapshot is the profile with the overrides laid over it, but for
  two names
-/

namespace ScriptLint.Options

open Mapping

/-- What a caller does with the options of an edition: it stores a value under a name, assigns a
declared option of the record, or looks a name up, stored or not. -/
inductive Access (v : Variant) where
  | set (name : String) (value : Value)
  | assign (name : String) (value : Value) (hname : name ∈ declaredNames v)
  | get (name : String)

namespace Access

variable {v : Variant}

def perform (s : Store) : Access v → Store
  | set name value => s.set name value
  | assign name value _ => s.setField name value
  | get _ => s

/-- Name and value that an access writes. -/
def written? : Access v → Option (String × Value)
  | set name value => some (name, value)
  | assign name value _ => some (name, value)
  | get _ => none

/-- The fault that a write ends with, after it was made. -/
def fault? (s : Store) : Access v → Option Fault
  | set name _ => s.setFault? name
  | assign name value _ => s.setFieldFault? name value
  | get _ => none

end Access

namespace Store

variable {v : Variant} {s : Store}

def after (s : Store) (run : List (Access v)) : Store := run.foldl Access.perform s

/-- What a run writes, by either way, in order. -/
def writes (run : List (Access v)) : List (String × Value) := run.filterMap Access.written?

theorem notes_set (s : Store) (name : String) (value : Value) :
    (s.set name value).notes = s.notes := by
  rw [set]
  split <;> rfl

/-- One access: the store keeps its shape, its edition and its notes, and a write is one to its
snapshot. -/
theorem perform_step (hshape : s.Shaped) (hvariant : s.variant = v) (access : Access v) :
    (access.perform s).Shaped ∧ (access.perform s).variant = v ∧
      (access.perform s).notes = s.notes ∧
      (access.perform s).snapshot = layer s.snapshot access.written?.toList := by
  have hset : ∀ name value, (s.set name value).Shaped ∧ (s.set name value).variant = v ∧
      (s.set name value).notes = s.notes ∧
      (s.set name value).snapshot = layer s.snapshot [(name, value)] := fun name value =>
    ⟨shaped_set hshape name value, (variant_set s name value).trans hvariant,
      notes_set s name value, hshape.snapshot_set name value⟩
  cases access with
  | set name value => exact hset name value
  | assign name value hname =>
    have hfield : isField s.variant name = true := isField_iff.2 (hvariant ▸ hname)
    have hassign : s.setField name value = s.set name value := by
      rw [setField, if_pos hfield]
    rw [Access.perform, hassign]
    exact hset name value
  | get name => exact ⟨hshape, hvariant, rfl, rfl⟩

/-- Writes fail only where the record was given something to take its notes in. -/
theorem fault?_eq_none (hvariant : s.variant = v) (hnotes : s.notes = .null) (access : Access v) :
    access.fault? s = none := by
  have hset : ∀ name, s.setFault? name = none := by
    intro name
    rw [setFault?, hnotes]
    split <;> rfl
  cases access with
  | set name value => exact hset name
  | assign name value hname =>
    have hfield : isField s.variant name = true := isField_iff.2 (hvariant ▸ hname)
    rw [Access.fault?, setFieldFault?, if_pos hfield]
    exact hset name
  | get name => rfl

/-- A run: the snapshot is the first one with all that was written laid over it. -/
theorem after_run (run : List (Access v)) : ∀ {s : Store}, s.Shaped → s.variant = v →
    (s.after run).Shaped ∧ (s.after run).variant = v ∧ (s.after run).notes = s.notes ∧
      (s.after run).snapshot = layer s.snapshot (writes run) := by
  induction run with
  | nil =>
    intro s hshape hvariant
    exact ⟨hshape, hvariant, rfl, rfl⟩
  | cons access run ih =>
    intro s hshape hvariant
    obtain ⟨hshape', hvariant', hnotes', hstep⟩ := perform_step hshape hvariant access
    obtain ⟨hshape'', hvariant'', hnotes'', hrun⟩ := ih hshape' hvariant'
    have hwrites : writes (access :: run) = access.written?.toList ++ writes run := by
      rw [writes, List.filterMap_cons, writes]
      cases access.written? <;> rfl
    refine ⟨hshape'', hvariant'', hnotes''.trans hnotes', ?_⟩
    rw [hwrites, layer, List.foldl_append]
    rw [hstep] at hrun
    exact hrun

theorem notes_create {overrides : Mapping Value} {journal : Log.Journal}
    (h : Store.create v overrides = (.ok s, journal))
    (hnone : overrides.has swallowedName = false) : s.notes = .null := by
  have hdefault : swallowedName ∉ keys (defaults v) :=
    fun hmem => declared_not_swallowed (keys_defaults v ▸ hmem) rfl
  have hoverride : swallowedName ∉ keys overrides := by
    rw [← Mapping.has_iff, hnone]
    exact Bool.false_ne_true
  rw [create_eq] at h
  split at h
  · cases h
  · cases h
    rw [ofProfile, resolve, get?_layer, last?_eq_none_iff.2 hoverride,
      get?_eq_none_iff.2 hdefault]
    rfl

/-- After any run on a store that was created, every way of reading sees one ordered mapping: the
first snapshot with all writes laid over it. A look-up gives the value written last, else the first
one, and fails for the names that are neither declared nor stored first nor written. The names are
the declared options in the order of their declaration and then the others in the order of first
storage. Looking up changes nothing. A write is made in any case; it fails afterwards only if the
store was created with something under the name that is swallowed. -/
theorem after_ordered {overrides : Mapping Value} {journal : Log.Journal}
    (h : Store.create v overrides = (.ok s, journal)) (run : List (Access v)) :
    let first := s.snapshot
    let written := writes run
    let now := s.after run
    let stored := (keys first ++ keys written).eraseDups
    (∀ n, now.get n =
      ((last? n written).or (Mapping.get? n first)).elim (.error (.noOption n)) .ok) ∧
    (∀ n, now.get n = .error (.noOption n) ↔
      n ∉ declaredNames v ∧ n ∉ keys first ∧ n ∉ keys written) ∧
    now.names = declaredNames v ++ stored.filter (fun n => !isField v n) ∧
    now.names.Nodup ∧ keys now.snapshot = now.names ∧ now.size = now.names.length ∧
    (∀ n, now.hasValue (.str n) = true ↔ n ∈ now.names) ∧
    (∀ n, Mapping.get? n now.snapshot = (now.get n).toOption) ∧
    (overrides.has swallowedName = false → ∀ access : Access v, access.fault? now = none) := by
  intro first written now stored
  obtain ⟨hfirst, hvariant⟩ := shaped_create h
  obtain ⟨hnow, hvariant', hnotes, hsnapshot⟩ := after_run run hfirst hvariant
  have hlook : ∀ n, now.get? n = (last? n written).or (Mapping.get? n first) := by
    intro n
    rw [hnow.get?_eq, hsnapshot, get?_layer]
  have hnames : now.names = stored := by
    rw [hnow.names_eq, hsnapshot, keys_layer]
    exact (List.eraseDups_append.trans
      (congrArg (· ++ _) (eraseDups_of_nodup hfirst.nodup_snapshot))).symm
  refine ⟨fun n => hlook n ▸ now.get_eq n, ?_, ?_, hnow.names_eq ▸ hnow.nodup_snapshot,
    hnow.names_eq.symm, rfl, fun n => hnow.has_iff n, ?_, ?_⟩
  · intro n
    have hdeclared : n ∉ keys first → n ∉ declaredNames v := by
      intro hn hmem
      obtain ⟨value, hvalue⟩ := hfirst.exists_mem_snapshot (hvariant ▸ hmem)
      exact hn (List.mem_map.2 ⟨_, hvalue, rfl⟩)
    have hnone : now.get? n = none ↔ n ∉ keys first ∧ n ∉ keys written := by
      rw [hlook, Option.or_eq_none_iff, last?_eq_none_iff, get?_eq_none_iff, and_comm]
    rw [get_eq]
    cases hfound : now.get? n with
    | some value =>
      rw [hfound] at hnone
      constructor
      · intro h
        cases h
      · rintro ⟨_, habsent⟩
        cases hnone.2 habsent
    | none =>
      rw [hfound] at hnone
      have habsent := hnone.1 rfl
      exact ⟨fun _ => ⟨hdeclared habsent.1, habsent⟩, fun _ => rfl⟩
  · rw [hnow.filter_names, hvariant', hnames]
  · intro n
    rw [← hnow.get?_eq, get_eq]
    cases now.get? n <;> rfl
  · intro hnone access
    exact fault?_eq_none hvariant' (hnotes.trans (notes_create h hnone)) access

/-- Overrides of a declared option and of one that only the other edition declares. -/
def mixedOverrides : Mapping Value := [("curly", .int 1), ("strict", .null)]

def mixedRun : List (Access .jslint) :=
  [.get "zeta", .set "zeta" (.int 1), .assign "strict" (.str "on") (by decide), .set "cls" .null,
    .set "curly" (.int 2), .get "missing", .set "zeta" (.list [])]

theorem after_ordered_mixed :
    let s := ofProfile .jslint (resolve (defaults .jslint) mixedOverrides)
    (Store.create .jslint mixedOverrides).1 = .ok s ∧
    (s.after mixedRun).get "zeta" = .ok (.list []) ∧
    (s.after mixedRun).get "strict" = .ok (.str "on") ∧
    (s.after mixedRun).get "missing" = .error (.noOption "missing") ∧
    (s.after mixedRun).names = declaredNames .jslint ++ ["curly", "zeta", "cls"] := by
  intro s
  have hcreate : Store.create .jslint mixedOverrides =
      (.ok s, unknownNotice .jslint mixedOverrides) := rfl
  obtain ⟨hget, habsent, hnames, _⟩ := after_ordered hcreate mixedRun
  refine ⟨rfl, (hget "zeta").trans rfl, (hget "strict").trans rfl, ?_, hnames.trans ?_⟩
  · exact (habsent "missing").2 (by decide)
  · decide

section Created

variable {overrides : Mapping Value} {journal : Log.Journal}

/-- A store that was created holds the profile with the overrides laid over it, but for the name
that is swallowed. -/
theorem snapshot_create (h : Store.create v overrides = (.ok s, journal)) :
    s.snapshot = (resolve (defaults v) overrides).filter fun e => e.1 != swallowedName := by
  have hkeys : keys (resolve (defaults v) overrides) = declaredNames v ++ _ :=
    (keys_layer overrides (defaults v)).trans (by rw [keys_defaults])
  have hnodup : (keys (resolve (defaults v) overrides)).Nodup :=
    nodup_layer overrides (nodup_defaults v)
  rw [create_eq] at h
  split at h
  · cases h
  · cases h
    exact snapshot_ofProfile hnodup hkeys

theorem get?_create (h : Store.create v overrides = (.ok s, journal)) {n : String}
    (hn : n ≠ swallowedName) :
    s.get? n = (last? n overrides).or (Mapping.get? n (defaults v)) := by
  rw [(shaped_create h).1.get?_eq, snapshot_create h, get?_filter_ne hn, resolve, get?_layer]

/-- Nothing is swallowed of overrides without the name for it. -/
theorem snapshot_create_eq (h : Store.create v overrides = (.ok s, journal))
    (hnone : overrides.has swallowedName = false) :
    s.snapshot = resolve (defaults v) overrides := by
  rw [snapshot_create h, List.filter_eq_self]
  intro e he
  rw [bne_iff_ne]
  obtain he | he := mem_layer he
  · have hname : e.1 ∈ keys (defaults v) := List.mem_map_of_mem he
    exact declared_not_swallowed (keys_defaults v ▸ hname)
  · intro heq
    rw [Mapping.has_iff.2 (heq ▸ List.mem_map_of_mem he)] at hnone
    cases hnone

end Created

/-- Overrides give the first snapshot: the profile with the overrides laid over it. Two names are
special. Under the first of them nothing can be given; what is given under the second is not kept,
and all other options are as if it were not there. -/
theorem create_layers (v : Variant) (overrides : Mapping Value) :
    (overrides.has refusedName = true →
      (Store.create v overrides).1 = .error .reservedOverride) ∧
    (overrides.has refusedName = false → ∃ s, (Store.create v overrides).1 = .ok s ∧
      s.snapshot = (resolve (defaults v) overrides).filter (fun e => e.1 != swallowedName) ∧
      (∀ n, n ≠ swallowedName →
        s.get? n = (last? n overrides).or (Mapping.get? n (defaults v))) ∧
      (overrides.has swallowedName = false → s.snapshot = resolve (defaults v) overrides)) := by
  constructor
  · intro h
    rw [create_eq, if_pos h]
  · intro h
    have hcreate : Store.create v overrides =
        (.ok (ofProfile v (resolve (defaults v) overrides)), unknownNotice v overrides) := by
      rw [create_eq, if_neg (by rw [h]; exact Bool.false_ne_true)]
    exact ⟨_, congrArg Prod.fst hcreate, snapshot_create hcreate,
      fun n hn => get?_create hcreate hn, snapshot_create_eq hcreate⟩

/-- Overrides under either of the two names do not give the profile with them laid over it. -/
theorem create_special :
    (¬ ∃ s, (Store.create .jshint [("cls", .int 1)]).1 = .ok s) ∧
    ∀ s, (Store.create .jshint [("_fields_set", .int 1)]).1 = .ok s →
      s.snapshot ≠ resolve (defaults .jshint) [("_fields_set", .int 1)] := by
  constructor
  · rintro ⟨s, h⟩
    cases h
  · intro s h hsnapshot
    cases h
    have hhas := congrArg (Mapping.has "_fields_set") hsnapshot
    revert hhas
    decide

end Store

end ScriptLint.Options
