import ScriptLint.Options.Store
import ScriptLint.Proofs.Mappings

/-!
# ScriptLint.Proofs.Stores

A store has a value for every option that its edition declares, and keeps all other options apart,
whatever is written to it.

* `Store.Shaped`: the shape of a store
* `shaped_ofProfile`, `shaped_set`, `shaped_setField`: stores are made so and stay so
* `Shaped.snapshot_eq`: a snapshot lists the declared options and then the others
* `snapshot_set`, `get?_eq`, `names_eq`, `has_iff`: a store is read and written by its snapshot
* `snapshot_ofProfile`: the first snapshot
-/

namespace ScriptLint.Options

theorem nodup_declaredNames (v : Variant) : (declaredNames v).Nodup := by
  cases v <;> decide

/-- The profile of an edition lists the options that it declares. -/
theorem keys_defaults (v : Variant) : Mapping.keys (defaults v) = declaredNames v := by
  cases v <;> rfl

theorem nodup_defaults (v : Variant) : (Mapping.keys (defaults v)).Nodup :=
  keys_defaults v ▸ nodup_declaredNames v

namespace Store

theorem isField_iff {v : Variant} {name : String} :
    isField v name = true ↔ name ∈ declaredNames v := by
  rw [isField, List.contains_iff_mem]

theorem get_eq (s : Store) (name : String) :
    s.get name = (s.get? name).elim (.error (.noOption name)) .ok := by
  rw [get]
  cases s.get? name <;> rfl

/-- The fields of a store are the options that its edition declares, each once; it keeps no other
option twice. -/
structure Shaped (s : Store) : Prop where
  fields_keys : Mapping.keys s.fields = declaredNames s.variant
  extras_nodup : (Mapping.keys s.extras).Nodup
  extras_free : ∀ n ∈ Mapping.keys s.extras, isField s.variant n = false

theorem shaped_ofProfile (v : Variant) {profile : Mapping Value}
    (h : (Mapping.keys profile).Nodup) : (ofProfile v profile).Shaped := by
  refine ⟨?_, ?_, ?_⟩
  · simp [ofProfile, Mapping.keys, Function.comp_def]
  · exact h.sublist (List.filter_sublist.map Prod.fst)
  · intro n hn
    obtain ⟨e, he, rfl⟩ := List.mem_map.1 hn
    have hfree := (List.mem_filter.1 he).2
    simp only [Bool.and_eq_true, Bool.not_eq_true'] at hfree
    exact hfree.1

/-- No edition has a default under the name that the store refuses. -/
theorem has_resolve (v : Variant) (overrides : Mapping Value) :
    (resolve (defaults v) overrides).has refusedName = overrides.has refusedName := by
  have hdefaults : (defaults v).has refusedName = false := by
    cases v <;> decide
  rw [resolve, Mapping.has_layer, hdefaults, Bool.false_or]

theorem create_eq (v : Variant) (overrides : Mapping Value) :
    create v overrides =
      if overrides.has refusedName then (.error .reservedOverride, [])
      else (.ok (ofProfile v (resolve (defaults v) overrides)), unknownNotice v overrides) := by
  rw [← has_resolve v overrides]
  rfl

theorem shaped_create {v : Variant} {overrides : Mapping Value} {s : Store} {journal : Log.Journal}
    (h : Store.create v overrides = (.ok s, journal)) : s.Shaped ∧ s.variant = v := by
  rw [Store.create] at h
  split at h
  · cases h
  · cases h
    exact ⟨shaped_ofProfile v (Mapping.nodup_layer overrides (nodup_defaults v)), rfl⟩

variable {s : Store}

@[simp] theorem variant_set (s : Store) (name : String) (value : Value) :
    (s.set name value).variant = s.variant := by
  rw [set]
  split <;> rfl

theorem shaped_set (h : s.Shaped) (name : String) (value : Value) : (s.set name value).Shaped := by
  by_cases hfield : isField s.variant name = true
  · rw [set, if_pos hfield]
    refine ⟨?_, h.extras_nodup, h.extras_free⟩
    rw [Mapping.keys_put, h.fields_keys, if_pos (isField_iff.1 hfield)]
  · rw [set, if_neg hfield]
    refine ⟨h.fields_keys, Mapping.nodup_put name value h.extras_nodup, ?_⟩
    intro n hn
    rw [Mapping.keys_put] at hn
    split at hn
    · exact h.extras_free n hn
    · rcases List.mem_append.1 hn with hn | hn
      · exact h.extras_free n hn
      · rw [List.mem_singleton.1 hn]
        simpa using hfield

/-- Assigning an attribute stores an option, or leaves all options as they are. -/
theorem setField_cases (s : Store) (name : String) (value : Value) :
    s.setField name value = s.set name value ∨
      ∃ attributes, s.setField name value = { s with attributes := attributes } := by
  unfold setField
  split
  · exact .inl rfl
  · split
    · exact .inr ⟨s.attributes, rfl⟩
    · exact .inl rfl
    · exact .inr ⟨_, rfl⟩

theorem variant_setField (s : Store) (name : String) (value : Value) :
    (s.setField name value).variant = s.variant := by
  obtain h | ⟨attributes, h⟩ := setField_cases s name value
  · rw [h, variant_set]
  · rw [h]

theorem shaped_setField (h : s.Shaped) (name : String) (value : Value) :
    (s.setField name value).Shaped := by
  obtain heq | ⟨attributes, heq⟩ := setField_cases s name value
  · rw [heq]
    exact shaped_set h name value
  · rw [heq]
    exact ⟨h.fields_keys, h.extras_nodup, h.extras_free⟩

namespace Shaped

theorem nodup (h : s.Shaped) : (Mapping.keys (s.fields ++ s.extras)).Nodup := by
  have hkeys : Mapping.keys (s.fields ++ s.extras) =
      Mapping.keys s.fields ++ Mapping.keys s.extras := List.map_append
  rw [hkeys, List.nodup_append]
  refine ⟨h.fields_keys ▸ nodup_declaredNames s.variant, h.extras_nodup, ?_⟩
  intro n hn k hk hnk
  have hfield := isField_iff.2 (h.fields_keys ▸ hn)
  rw [hnk, h.extras_free k hk] at hfield
  cases hfield

/-- A snapshot lists the declared options and then the others. -/
theorem snapshot_eq (h : s.Shaped) : s.snapshot = s.fields ++ s.extras :=
  Mapping.layer_nodup h.nodup

theorem nodup_snapshot (h : s.Shaped) : (Mapping.keys s.snapshot).Nodup := by
  rw [h.snapshot_eq]
  exact h.nodup

/-- A declared option has a value in every snapshot. -/
theorem exists_mem_snapshot (h : s.Shaped) {name : String}
    (hname : name ∈ declaredNames s.variant) : ∃ value, (name, value) ∈ s.snapshot := by
  rw [← h.fields_keys] at hname
  obtain ⟨e, he, rfl⟩ := List.mem_map.1 hname
  rw [h.snapshot_eq]
  exact ⟨e.2, List.mem_append_left _ he⟩

/-- A write to the store is a write to its snapshot. -/
theorem snapshot_set (h : s.Shaped) (name : String) (value : Value) :
    (s.set name value).snapshot = Mapping.put name value s.snapshot := by
  rw [(shaped_set h name value).snapshot_eq, h.snapshot_eq, Mapping.put_append, h.fields_keys, set]
  by_cases hfield : isField s.variant name = true
  · rw [if_pos hfield, if_pos (isField_iff.1 hfield)]
  · rw [if_neg hfield, if_neg fun hmem => hfield (isField_iff.2 hmem)]

/-- A look-up in the store is a look-up in its snapshot. -/
theorem get?_eq (h : s.Shaped) (name : String) : s.get? name = Mapping.get? name s.snapshot := by
  rw [h.snapshot_eq, Mapping.get?_append, get?]
  by_cases hfield : isField s.variant name = true
  · have hmem : name ∈ Mapping.keys s.fields := h.fields_keys ▸ isField_iff.1 hfield
    obtain ⟨value, hvalue⟩ := Option.ne_none_iff_exists'.1
      fun hnone => Mapping.get?_eq_none_iff.1 hnone hmem
    rw [if_pos hfield, hvalue, Option.some_or]
  · have hmem : name ∉ Mapping.keys s.fields :=
      fun hmem => hfield (isField_iff.2 (h.fields_keys ▸ hmem))
    rw [if_neg hfield, Mapping.get?_eq_none_iff.2 hmem, Option.none_or]

/-- The names of a store are those of its snapshot. -/
theorem names_eq (h : s.Shaped) : s.names = Mapping.keys s.snapshot := by
  rw [h.snapshot_eq, names, Mapping.keys, Mapping.keys, Mapping.keys, List.map_append]

theorem has_iff (h : s.Shaped) (name : String) : s.has name = true ↔ name ∈ s.names := by
  rw [has, names, List.mem_append, h.fields_keys, Bool.or_eq_true, isField_iff, Mapping.has_iff]

/-- Declared options come first, in the order of their declaration. -/
theorem filter_names (h : s.Shaped) :
    s.names = declaredNames s.variant ++ s.names.filter fun n => !isField s.variant n := by
  have hfields : (declaredNames s.variant).filter (fun n => !isField s.variant n) = [] := by
    rw [List.filter_eq_nil_iff]
    intro n hn
    rw [isField_iff.2 hn]
    exact Bool.false_ne_true
  have hextras : (Mapping.keys s.extras).filter (fun n => !isField s.variant n) =
      Mapping.keys s.extras := by
    rw [List.filter_eq_self]
    intro n hn
    rw [h.extras_free n hn]
    rfl
  rw [names, h.fields_keys, List.filter_append, hfields, hextras, List.nil_append]

theorem mem_snapshot_set (h : s.Shaped) {name : String} {value : Value} {e : String × Value}
    (he : e ∈ (s.set name value).snapshot) : e = (name, value) ∨ e ∈ s.snapshot := by
  rw [h.snapshot_set] at he
  exact Mapping.mem_put he

/-- A write leaves every other option as it is. -/
theorem get?_snapshot_set (h : s.Shaped) {name other : String} (value : Value)
    (hne : name ≠ other) :
    Mapping.get? other (s.set name value).snapshot = Mapping.get? other s.snapshot := by
  rw [h.snapshot_set, Mapping.get?_put_ne value _ hne]

end Shaped

theorem declared_not_swallowed {v : Variant} {n : String} (h : n ∈ declaredNames v) :
    n ≠ swallowedName := by
  have hall : ∀ v, ∀ n ∈ declaredNames v, n ≠ swallowedName := by
    intro v
    cases v <;> decide
  exact hall v n h

/-- A store made from a profile that starts with the declared options holds all of it but the
option that is swallowed. -/
theorem snapshot_ofProfile {v : Variant} {profile : Mapping Value} {others : List String}
    (hnodup : (Mapping.keys profile).Nodup)
    (hkeys : Mapping.keys profile = declaredNames v ++ others) :
    (ofProfile v profile).snapshot = profile.filter fun e => e.1 != swallowedName := by
  rw [(shaped_ofProfile v hnodup).snapshot_eq]
  obtain ⟨top, rest, hprofile, htop, hrest⟩ := List.map_eq_append_iff.1 hkeys
  have hself : top.map (fun e => (e.1, (Mapping.get? e.1 profile).getD .null)) = top := by
    refine (List.map_congr_left fun e he => ?_).trans (List.map_id top)
    have hmem : (e.1, e.2) ∈ profile := hprofile ▸ List.mem_append_left rest he
    rw [Mapping.get?_of_mem hnodup hmem]
    rfl
  have hdeclared : ∀ e ∈ top, isField v e.1 = true ∧ (e.1 != swallowedName) = true := by
    intro e he
    have hname : e.1 ∈ declaredNames v := htop ▸ List.mem_map_of_mem he
    exact ⟨isField_iff.2 hname, bne_iff_ne.2 (declared_not_swallowed hname)⟩
  have hothers : ∀ e ∈ rest, isField v e.1 = false := by
    intro e he
    rw [hkeys, List.nodup_append] at hnodup
    rw [← Bool.not_eq_true, isField_iff]
    intro hname
    exact hnodup.2.2 e.1 hname e.1 (hrest ▸ List.mem_map_of_mem he) rfl
  have hnone : top.filter (fun e => !isField v e.1 && e.1 != swallowedName) = [] := by
    rw [List.filter_eq_nil_iff]
    intro e he
    simp [(hdeclared e he).1]
  have hall : top.filter (fun e => e.1 != swallowedName) = top :=
    List.filter_eq_self.2 fun e he => (hdeclared e he).2
  have hsome : rest.filter (fun e => !isField v e.1 && e.1 != swallowedName) =
      rest.filter fun e => e.1 != swallowedName := by
    refine List.filter_congr fun e he => ?_
    rw [hothers e he]
    rfl
  have hfields : (ofProfile v profile).fields = top := by
    rw [ofProfile, ← htop, List.map_map]
    exact hself
  have hextras : (ofProfile v profile).extras = rest.filter fun e => e.1 != swallowedName := by
    rw [ofProfile, hprofile, List.filter_append, hnone, hsome, List.nil_append]
  rw [hfields, hextras, hprofile, List.filter_append, hall]

end Store

end ScriptLint.Options
