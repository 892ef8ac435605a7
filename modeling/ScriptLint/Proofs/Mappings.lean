import ScriptLint.Mapping

/-!
# ScriptLint.Proofs.Mappings

Laws of ordered mappings: what a write does to every name, and how mappings without repeated names
behave as lists.

* `get?_put`: a write changes one name
* `keys_put`, `nodup_put`: names after a write
* `get?_layer`, `keys_layer`: values and names of one mapping on top of another
* `ofPairs_nodup`: a list without repeated names is the mapping of itself
* `get?_gathered`, `keys_gathered`: a mapping that is gathered name by name
-/

namespace ScriptLint.Mapping

variable {α β : Type}

theorem get?_put_self (name : String) (value : α) (m : Mapping α) :
    get? name (put name value m) = some value := by
  induction m with
  | nil => simp [put, get?]
  | cons e rest ih =>
    obtain ⟨n, v⟩ := e
    by_cases h : n = name
    · simp [put, get?, h]
    · simp [put, get?, h, ih]

theorem get?_put_ne {name other : String} (value : α) (m : Mapping α) (h : name ≠ other) :
    get? other (put name value m) = get? other m := by
  induction m with
  | nil => simp [put, get?, h]
  | cons e rest ih =>
    obtain ⟨n, v⟩ := e
    by_cases hn : n = name
    · subst hn
      simp [put, get?, h]
    · simp [put, get?, hn, ih]

/-- A write changes the value of one name. -/
theorem get?_put (name other : String) (value : α) (m : Mapping α) :
    get? other (put name value m) = if name = other then some value else get? other m := by
  split
  · rename_i h
    rw [← h, get?_put_self]
  · rename_i h
    exact get?_put_ne value m h

/-- A new name goes to the end, a known one keeps its place. -/
theorem keys_put (name : String) (value : α) (m : Mapping α) :
    keys (put name value m) = if name ∈ keys m then keys m else keys m ++ [name] := by
  induction m with
  | nil => simp [put, keys]
  | cons e rest ih =>
    obtain ⟨n, v⟩ := e
    by_cases h : n = name
    · simp [put, keys, h]
    · simp only [keys] at ih
      have hne : ¬name = n := fun heq => h heq.symm
      by_cases hmem : name ∈ rest.map Prod.fst
      · simp only [put, if_neg h, keys, List.map_cons, ih, List.mem_cons, hmem, or_true,
          if_true]
      · simp only [put, if_neg h, keys, List.map_cons, ih, List.mem_cons, hmem, hne, or_false,
          if_false, List.cons_append]

theorem nodup_put {m : Mapping α} (name : String) (value : α) (h : (keys m).Nodup) :
    (keys (put name value m)).Nodup := by
  rw [keys_put]
  split
  · exact h
  · rename_i hmem
    rw [List.nodup_append]
    refine ⟨h, List.pairwise_singleton _ _, ?_⟩
    intro x hx y hy hxy
    rw [List.mem_singleton] at hy
    rw [hxy, hy] at hx
    exact hmem hx

theorem put_of_not_mem {m : Mapping α} {name : String} (value : α) (h : name ∉ keys m) :
    put name value m = m ++ [(name, value)] := by
  induction m with
  | nil => rfl
  | cons e rest ih =>
    obtain ⟨n, v⟩ := e
    simp only [keys, List.map_cons, List.mem_cons, not_or] at h
    rw [put, if_neg (fun heq => h.1 heq.symm), ih h.2, List.cons_append]

theorem layer_cons (m : Mapping α) (name : String) (value : α) (top : List (String × α)) :
    layer m ((name, value) :: top) = layer (put name value m) top := rfl

theorem get?_append (name : String) (m top : List (String × α)) :
    get? name (m ++ top) = (get? name m).or (get? name top) := by
  induction m with
  | nil => simp [get?]
  | cons e rest ih =>
    obtain ⟨n, v⟩ := e
    by_cases h : n = name
    · simp [get?, h]
    · simp [get?, h, ih]

theorem has_put (name other : String) (value : α) (m : Mapping α) :
    (put name value m).has other = (decide (name = other) || m.has other) := by
  rw [has, has, get?_put]
  by_cases h : name = other
  · simp [h]
  · simp [h]

theorem has_layer (name : String) (top : List (String × α)) : ∀ m : Mapping α,
    (layer m top).has name = (m.has name || has name top) := by
  induction top with
  | nil =>
    intro m
    rw [layer, List.foldl_nil]
    simp [has, get?]
  | cons e top ih =>
    intro m
    obtain ⟨n, v⟩ := e
    rw [layer_cons, ih, has_put, has, has, has, get?]
    by_cases h : n = name
    · simp [h]
    · simp [h]

theorem nodup_layer {m : Mapping α} (top : List (String × α)) (h : (keys m).Nodup) :
    (keys (layer m top)).Nodup := by
  induction top generalizing m with
  | nil => exact h
  | cons e rest ih => exact ih (nodup_put e.1 e.2 h)

/-- No name of a mapping made of pairs is repeated. -/
theorem nodup_ofPairs (pairs : List (String × α)) : (keys (ofPairs pairs)).Nodup :=
  nodup_layer pairs List.nodup_nil

theorem layer_nodup {m top : List (String × α)} (h : (keys (m ++ top)).Nodup) :
    layer m top = m ++ top := by
  induction top generalizing m with
  | nil => exact (List.append_nil m).symm
  | cons e rest ih =>
    obtain ⟨n, v⟩ := e
    have hassoc : m ++ (n, v) :: rest = m ++ [(n, v)] ++ rest := by simp
    have hmem : n ∉ keys m := by
      simp only [keys, List.map_append, List.map_cons, List.nodup_append] at h
      intro hn
      exact h.2.2 n hn n List.mem_cons_self rfl
    rw [layer_cons, put_of_not_mem v hmem, hassoc]
    rw [hassoc] at h
    exact ih h

/-- A list without repeated names is the mapping of itself. -/
theorem ofPairs_nodup {pairs : List (String × α)} (h : (keys pairs).Nodup) :
    ofPairs pairs = pairs := layer_nodup h

theorem mem_of_get? {m : Mapping α} {name : String} {value : α} (h : get? name m = some value) :
    (name, value) ∈ m := by
  induction m with
  | nil => cases h
  | cons e rest ih =>
    obtain ⟨n, v⟩ := e
    rw [get?] at h
    split at h
    · rename_i hn
      cases h
      rw [hn]
      exact List.mem_cons_self
    · exact List.mem_cons_of_mem _ (ih h)

theorem mem_put {m : Mapping α} {name : String} {value : α} {e : String × α}
    (h : e ∈ put name value m) : e = (name, value) ∨ e ∈ m := by
  induction m with
  | nil => exact .inl (List.mem_singleton.1 h)
  | cons e' rest ih =>
    obtain ⟨n, v⟩ := e'
    rw [put] at h
    split at h
    · rename_i hn
      rcases List.mem_cons.1 h with h | h
      · rw [hn] at h
        exact .inl h
      · exact .inr (List.mem_cons_of_mem _ h)
    · rcases List.mem_cons.1 h with h | h
      · rw [h]
        exact .inr List.mem_cons_self
      · rcases ih h with h | h
        · exact .inl h
        · exact .inr (List.mem_cons_of_mem _ h)

theorem mem_layer {m : Mapping α} {top : List (String × α)} {e : String × α}
    (h : e ∈ layer m top) : e ∈ m ∨ e ∈ top := by
  induction top generalizing m with
  | nil => exact .inl h
  | cons e' rest ih =>
    rcases ih h with h | h
    · rcases mem_put h with h | h
      · rw [h]
        exact .inr List.mem_cons_self
      · exact .inl h
    · exact .inr (List.mem_cons_of_mem _ h)

/-- A mapping made of pairs holds none but these. -/
theorem mem_ofPairs {pairs : List (String × α)} {e : String × α} (h : e ∈ ofPairs pairs) :
    e ∈ pairs := by
  rcases mem_layer h with h | h
  · cases h
  · exact h

theorem get?_of_mem {m : Mapping α} {name : String} {value : α} (hm : (keys m).Nodup)
    (h : (name, value) ∈ m) : get? name m = some value := by
  induction m with
  | nil => cases h
  | cons e rest ih =>
    obtain ⟨n, v⟩ := e
    simp only [keys, List.map_cons, List.nodup_cons] at hm
    rcases List.mem_cons.1 h with heq | h
    · cases heq
      simp [get?]
    · have hne : n ≠ name := by
        rintro rfl
        exact hm.1 (List.mem_map.2 ⟨_, h, rfl⟩)
      rw [get?, if_neg hne]
      exact ih hm.2 h

theorem put_map (f : String → α → β) (n : String) (v : α) (m : Mapping α) :
    put n (f n v) (m.map fun e => (e.1, f e.1 e.2)) =
      (put n v m).map fun e => (e.1, f e.1 e.2) := by
  induction m with
  | nil => rfl
  | cons e rest ih =>
    obtain ⟨k, w⟩ := e
    by_cases hk : k = n
    · subst hk
      simp [put]
    · simp [put, hk, ih]

/-- Changing the values one by one goes through writes. -/
theorem layer_map (f : String → α → β) (m top : List (String × α)) :
    layer (m.map fun e => (e.1, f e.1 e.2)) (top.map fun e => (e.1, f e.1 e.2)) =
      (layer m top).map fun e => (e.1, f e.1 e.2) := by
  induction top generalizing m with
  | nil => rfl
  | cons e rest ih =>
    obtain ⟨n, v⟩ := e
    rw [List.map_cons, layer_cons, put_map, ih, layer_cons]

/-- The value that a list of pairs gives to a name last. -/
def last? (name : String) (pairs : List (String × α)) : Option α := get? name pairs.reverse

theorem last?_cons (name : String) (e : String × α) (pairs : List (String × α)) :
    last? name (e :: pairs) = (last? name pairs).or (if e.1 = name then some e.2 else none) := by
  rw [last?, List.reverse_cons, get?_append]
  rfl

/-- The top mapping goes before the one below, and in it the last value of a name before others. -/
theorem get?_layer (name : String) (top : List (String × α)) : ∀ m : Mapping α,
    get? name (layer m top) = (last? name top).or (get? name m) := by
  induction top with
  | nil => intro m; rfl
  | cons e top ih =>
    intro m
    rw [layer_cons, ih, get?_put, last?_cons, Option.or_assoc]
    split
    · rfl
    · rfl

theorem get?_eq_none_iff {name : String} {m : Mapping α} :
    get? name m = none ↔ name ∉ keys m := by
  induction m with
  | nil => simp [get?, keys]
  | cons e m ih =>
    rw [get?, keys, List.map_cons, List.mem_cons, not_or, ← keys]
    split
    · rename_i h
      simp [h]
    · rename_i h
      simp [ih, Ne.symm h]

theorem has_iff {name : String} {m : Mapping α} : has name m = true ↔ name ∈ keys m := by
  rw [has, Option.isSome_iff_ne_none, Ne, get?_eq_none_iff, Decidable.not_not]

theorem last?_eq_none_iff {name : String} {pairs : List (String × α)} :
    last? name pairs = none ↔ name ∉ keys pairs := by
  rw [last?, get?_eq_none_iff, keys, keys, List.map_reverse, List.mem_reverse]

/-- A mapping without repeated names has one value for each. -/
theorem last?_of_nodup {m : Mapping α} (h : (keys m).Nodup) (name : String) :
    last? name m = get? name m := by
  cases hfound : get? name m with
  | none =>
    rw [last?_eq_none_iff]
    exact get?_eq_none_iff.1 hfound
  | some value =>
    have hreverse : (keys m.reverse).Nodup := by
      rw [keys, List.map_reverse]
      exact List.pairwise_reverse.2 (h.imp Ne.symm)
    exact get?_of_mem hreverse (List.mem_reverse.2 (mem_of_get? hfound))

/-- New names come behind the known ones, in the order in which they first come. -/
theorem keys_layer (top : List (String × α)) : ∀ m : Mapping α,
    keys (layer m top) = keys m ++ ((keys top).removeAll (keys m)).eraseDups := by
  induction top with
  | nil =>
    intro m
    exact (List.append_nil _).symm
  | cons e top ih =>
    intro m
    have hcons : keys (e :: top) = e.1 :: keys top := rfl
    rw [layer_cons, ih, keys_put, hcons, List.removeAll, List.removeAll, List.filter_cons]
    by_cases hmem : e.1 ∈ keys m
    · simp [hmem]
    · simp only [hmem, if_false, List.elem_eq_mem, decide_false, Bool.not_false, if_true,
        List.eraseDups_cons, List.append_assoc, List.filter_filter, List.singleton_append]
      congr 4
      funext n
      rw [Bool.eq_iff_iff]
      simp only [Bool.and_eq_true, Bool.not_eq_true', decide_eq_false_iff_not, beq_eq_false_iff_ne,
        List.mem_append, List.mem_singleton, not_or]
      exact and_comm

/-- Names that are not repeated are all first ones. -/
theorem eraseDups_of_nodup {names : List String} (h : names.Nodup) : names.eraseDups = names := by
  induction names with
  | nil => rfl
  | cons n names ih =>
    obtain ⟨hn, hnames⟩ := List.nodup_cons.1 h
    have hkept : names.filter (fun m => !m == n) = names := by
      rw [List.filter_eq_self]
      intro m hm
      have hne : m ≠ n := fun heq => hn (heq ▸ hm)
      simp [hne]
    rw [List.eraseDups_cons, hkept, ih hnames]

/-- The names of a mapping made of pairs are in the order in which they first come. -/
theorem keys_ofPairs (pairs : List (String × α)) :
    keys (ofPairs pairs) = (keys pairs).eraseDups := by
  have hself : (keys pairs).removeAll [] = keys pairs := List.filter_eq_self.2 fun _ _ => rfl
  rw [ofPairs, keys_layer]
  exact congrArg List.eraseDups hself

theorem get?_ofPairs (name : String) (pairs : List (String × α)) :
    get? name (ofPairs pairs) = last? name pairs := by
  rw [ofPairs, get?_layer]
  exact Option.or_none

theorem get?_filter_ne {name other : String} (h : name ≠ other) (m : Mapping α) :
    get? name (m.filter fun e => e.1 != other) = get? name m := by
  induction m with
  | nil => rfl
  | cons e m ih =>
    rw [List.filter_cons]
    split
    · rw [get?, get?, ih]
    · rename_i hsame
      have heq : e.1 = other := by simpa using hsame
      rw [ih, get?, heq, if_neg (Ne.symm h)]

/-- A write finds the first part of a mapping that knows the name. -/
theorem put_append (name : String) (value : α) (m top : List (String × α)) :
    put name value (m ++ top) =
      if name ∈ keys m then put name value m ++ top else m ++ put name value top := by
  induction m with
  | nil => simp [keys]
  | cons e m ih =>
    have hkeys : keys (e :: m) = e.1 :: keys m := rfl
    rw [List.cons_append, put, ih, hkeys]
    by_cases h : e.1 = name
    · simp [put, h]
    · by_cases hmem : name ∈ keys m
      · simp [put, h, hmem]
      · simp [h, hmem, Ne.symm h]

theorem keys_append (m top : List (String × α)) : keys (m ++ top) = keys m ++ keys top :=
  List.map_append

theorem keys_each (names : List String) (value : α) :
    keys (names.map fun n => (n, value)) = names := by
  rw [keys, List.map_map]
  exact List.map_id names

/-- A mapping that gives one value to every name of a list. -/
theorem get?_each (name : String) (names : List String) (value : α) :
    get? name (names.map fun n => (n, value)) = if name ∈ names then some value else none := by
  induction names with
  | nil => rfl
  | cons n names ih =>
    rw [List.map_cons, get?, ih]
    by_cases hn : n = name
    · simp [hn]
    · simp [hn, Ne.symm hn]

theorem get?_eq_find? (name : String) (m : Mapping α) :
    get? name m = (m.find? fun e => e.1 == name).map Prod.snd := by
  induction m with
  | nil => rfl
  | cons e m ih =>
    obtain ⟨n, v⟩ := e
    by_cases hn : n = name
    · simp [get?, hn]
    · simp [get?, hn, ih]

theorem keys_gathered (value? : String → Option α) (names : List String) :
    (keys (names.filterMap fun n => (value? n).map (Prod.mk n))).Sublist names := by
  induction names with
  | nil => exact .slnil
  | cons n names ih =>
    rw [List.filterMap_cons]
    cases value? n with
    | none => exact ih.cons n
    | some v => exact ih.cons_cons n

end ScriptLint.Mapping
