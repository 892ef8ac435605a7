import ScriptLint.Json.Object
import ScriptLint.Proofs.WrittenValues

/-!
# ScriptLint.Proofs.NormalValues

What a document holds in place of a value. Only lists, mappings of distinct texts and plain scalars
are left at any depth, but for the values of members, which are not looked into; values of these
alone stay as they are.

* `Json.Distinct`: documents that repeat no name in a mapping
* `toJson_toValue_distinct`, `distinct_toJson`: the documents of values are such, and are got back
* `Value.Normal`: values that a document holds as they are
* `Object.normalForm_items`, `Object.normalForm_entries`: items, and keys that get the same text
* `Object.Settled`: objects whose members have such values
* `Object.normalize_settles`: the normal form of an object
-/

namespace ScriptLint

theorem map_fixed {α : Type} {f : α → α} {xs : List α} (h : ∀ x ∈ xs, f x = x) : xs.map f = xs :=
  (List.map_congr_left h).trans (List.map_id xs)

namespace Json

/-- No mapping in the document repeats a name. -/
inductive Distinct : Json → Prop
  | null : Distinct .null
  | bool (b : Bool) : Distinct (.bool b)
  | int (i : Int) : Distinct (.int i)
  | float (x : Binary64) : Distinct (.float x)
  | str (s : String) : Distinct (.str s)
  | arr {xs : List Json} (h : ∀ x ∈ xs, Distinct x) : Distinct (.arr xs)
  | obj {fs : Mapping Json} (hnames : (Mapping.keys fs).Nodup) (h : ∀ e ∈ fs, Distinct e.2) :
      Distinct (.obj fs)

theorem itemValues_eq_map (xs : List Json) : itemValues xs = xs.map toValue := by
  induction xs with
  | nil => rfl
  | cons x xs ih => rw [itemValues, ih, List.map_cons]

theorem fieldValues_eq_map (fs : List (String × Json)) :
    fieldValues fs = fs.map fun e => (.str e.1, e.2.toValue) := by
  induction fs with
  | nil => rfl
  | cons e fs ih =>
    obtain ⟨n, x⟩ := e
    rw [fieldValues, ih, List.map_cons]

/-- A document without repeated names is the document of its value. -/
theorem toJson_toValue_distinct {j : Json} (h : j.Distinct) : j.toValue.toJson = j := by
  induction h with
  | null => rfl
  | bool b => rfl
  | int i => rfl
  | float x => rfl
  | str s => rfl
  | arr _ ih =>
    rw [toValue, Value.toJson, Value.itemsJson_eq_map, itemValues_eq_map, List.map_map]
    exact congrArg arr (map_fixed ih)
  | obj hnames _ ih => exact toJson_toValue_obj hnames ih

end Json

namespace Value

open Json

mutual

/-- Fields whose keys get the same text are one field of the document. -/
theorem distinct_toJson : ∀ v : Value, v.toJson.Distinct
  | .null => .null
  | .bool b => .bool b
  | .int i => .int i
  | .float x => .float x
  | .str s => .str s
  | .list xs => by
    rw [toJson]
    exact .arr (distinct_itemsJson xs)
  | .tuple xs => by
    rw [toJson]
    exact .arr (distinct_itemsJson xs)
  | .dict es => by
    rw [toJson_dict_ofPairs]
    exact .obj (Mapping.nodup_ofPairs _) fun e he =>
      distinct_entryFields es e (Mapping.mem_ofPairs he)
  | .choice c => .str c.text
  | .path p => .str p.text
  | .moment m => .str m.shown

theorem distinct_itemsJson : ∀ xs : List Value, ∀ j ∈ itemsJson xs, j.Distinct
  | [] => fun _ hj => by cases hj
  | x :: xs => by
    rw [itemsJson]
    exact List.forall_mem_cons.2 ⟨distinct_toJson x, distinct_itemsJson xs⟩

theorem distinct_entryFields : ∀ es : List (Value × Value), ∀ e ∈ entryFields es, e.2.Distinct
  | [] => fun _ he => by cases he
  | (_, v) :: es => by
    rw [entryFields, List.map_cons]
    exact List.forall_mem_cons.2 ⟨distinct_toJson v, distinct_entryFields es⟩

end

/-- Values that a document holds as they are: at no depth is there a tuple, a path, a moment or a
member of a choice, and all keys of a mapping are texts, none of them twice. -/
inductive Normal : Value → Prop
  | null : Normal .null
  | bool (b : Bool) : Normal (.bool b)
  | int (i : Int) : Normal (.int i)
  | float (x : Binary64) : Normal (.float x)
  | str (s : String) : Normal (.str s)
  | list {xs : List Value} (h : ∀ x ∈ xs, Normal x) : Normal (.list xs)
  | dict (names : List String) {es : List (Value × Value)}
      (hkeys : es.map Prod.fst = names.map Value.str) (hnames : names.Nodup)
      (h : ∀ e ∈ es, Normal e.2) : Normal (.dict es)

/-- The value of a document without repeated names. -/
theorem normal_toValue {j : Json} (h : j.Distinct) : j.toValue.Normal := by
  induction h with
  | null => exact .null
  | bool b => exact .bool b
  | int i => exact .int i
  | float x => exact .float x
  | str s => exact .str s
  | arr _ ih =>
    rw [toValue, itemValues_eq_map]
    exact .list (List.forall_mem_map.2 ih)
  | @obj fs hnames _ ih =>
    rw [toValue, fieldValues_eq_map]
    refine .dict (Mapping.keys fs) ?_ hnames (List.forall_mem_map.2 ih)
    rw [Mapping.keys, List.map_map, List.map_map]
    rfl

theorem normal_normalForm (v : Value) : v.normalForm.Normal := normal_toValue (distinct_toJson v)

/-- The fields that a mapping has in its normal form, where names may come twice yet. -/
def normalFields (es : List (Value × Value)) : List (String × Value) :=
  es.map fun e => (e.1.text, e.2.normalForm)

theorem normalForm_list (xs : List Value) : normalForm (.list xs) = .list (xs.map normalForm) := by
  rw [normalForm, toJson, itemsJson_eq_map, toValue, itemValues_eq_map, List.map_map]
  rfl

theorem normalForm_tuple (xs : List Value) :
    normalForm (.tuple xs) = .list (xs.map normalForm) := by
  rw [normalForm, toJson, itemsJson_eq_map, toValue, itemValues_eq_map, List.map_map]
  rfl

/-- Of keys that get the same text, the first gives the place and the last the value. -/
theorem normalForm_dict (es : List (Value × Value)) :
    normalForm (.dict es) =
      .dict ((Mapping.ofPairs (normalFields es)).map fun e => (.str e.1, e.2)) := by
  have hfields : (Mapping.ofPairs (entryFields es)).map (fun e => (e.1, e.2.toValue)) =
      Mapping.ofPairs (normalFields es) := by
    have hmap := Mapping.layer_map (fun _ j => Json.toValue j) [] (entryFields es)
    rw [entryFields, List.map_map] at hmap
    exact hmap.symm
  rw [normalForm, toJson_dict_ofPairs, toValue, fieldValues_eq_map, ← hfields, List.map_map]
  rfl

/-- A value in normal form stays as it is. -/
theorem normalForm_of_normal {v : Value} (h : v.Normal) : v.normalForm = v := by
  induction h with
  | null => rfl
  | bool b => rfl
  | int i => rfl
  | float x => rfl
  | str s => rfl
  | list _ ih => rw [normalForm_list, map_fixed ih]
  | @dict names es hkeys hnames _ ih =>
    have htext : ∀ e ∈ es, (Value.str e.1.text, e.2.normalForm) = e := by
      intro e he
      have hkey : e.1 ∈ names.map Value.str := hkeys ▸ List.mem_map_of_mem he
      obtain ⟨n, _, hn⟩ := List.mem_map.1 hkey
      rw [ih e he, ← hn]
      exact Prod.ext hn rfl
    have hfields : Mapping.keys (normalFields es) = names := by
      have hcomp : (es.map Prod.fst).map text = names := by
        rw [hkeys, List.map_map]
        exact map_fixed fun n _ => rfl
      rw [Mapping.keys, normalFields, List.map_map, ← hcomp, List.map_map]
      rfl
    rw [normalForm_dict, Mapping.ofPairs_nodup (hfields ▸ hnames), normalFields, List.map_map]
    exact congrArg Value.dict (map_fixed htext)

/-- The keys of a value in normal form are texts, so they have texts. -/
theorem keysShowable_of_normal {v : Value} (h : v.Normal) : v.keysShowable = true := by
  induction h with
  | null => rfl
  | bool b => rfl
  | int i => rfl
  | float x => rfl
  | str s => rfl
  | list _ ih => exact itemKeysShowable_iff.2 ih
  | dict names hkeys _ _ ih =>
    refine entryKeysShowable_iff.2 fun e he => ⟨?_, ih e he⟩
    have hkey : e.1 ∈ names.map Value.str := hkeys ▸ List.mem_map_of_mem he
    obtain ⟨n, _, hn⟩ := List.mem_map.1 hkey
    rw [← hn]
    rfl

theorem normalize_of_normal {v : Value} (h : v.Normal) : v.normalize = .ok v := by
  rw [normalize, keysShowable_of_normal h, normalForm_of_normal h]
  rfl

end Value

namespace Object

open Value

theorem itemForms_eq_map (xs : List Object) : itemForms xs = xs.map normalForm := by
  induction xs with
  | nil => rfl
  | cons x xs ih => rw [itemForms, ih, List.map_cons]

/-- The fields that the entries give, where names may come twice yet. -/
def formFields (es : List (Key × Object)) : List (String × Value) :=
  es.map fun e => (e.1.text, e.2.normalForm)

theorem entryForms_eq (es : List (Key × Object)) : ∀ done : Mapping Value,
    entryForms done es = Mapping.layer done (formFields es) := by
  induction es with
  | nil =>
    intro done
    rw [entryForms]
    rfl
  | cons e es ih =>
    intro done
    rw [entryForms, ih]
    rfl

/-- The items of a list or a tuple. -/
def items? : Object → Option (List Object)
  | .list xs => some xs
  | .tuple xs => some xs
  | .value (.list vs) => some (vs.map .value)
  | .value (.tuple vs) => some (vs.map .value)
  | _ => none

def entries? : Object → Option (List (Key × Object))
  | .dict es => some es
  | .value (.dict es) => some (es.map fun e => (.value e.1, .value e.2))
  | _ => none

theorem map_value (vs : List Value) :
    (vs.map Object.value).map normalForm = vs.map Value.normalForm := by
  rw [List.map_map]
  rfl

/-- Lists and tuples become lists item by item. -/
theorem normalForm_items {o : Object} {xs : List Object} (h : o.items? = some xs) :
    o.normalForm = .list (xs.map normalForm) := by
  unfold items? at h
  split at h
  · cases h
    rw [normalForm, itemForms_eq_map]
  · cases h
    rw [normalForm, itemForms_eq_map]
  · cases h
    rw [map_value, normalForm, normalForm_list]
  · cases h
    rw [map_value, normalForm, normalForm_tuple]
  · cases h

/-- Of keys that get the same text, the first gives the place and the last the value. -/
theorem normalForm_entries {o : Object} {es : List (Key × Object)} (h : o.entries? = some es) :
    o.normalForm = .dict ((Mapping.ofPairs (formFields es)).map fun e => (.str e.1, e.2)) := by
  unfold entries? at h
  split at h
  · cases h
    rw [normalForm, entryForms_eq]
    rfl
  · cases h
    rw [normalForm, normalForm_dict, formFields, List.map_map]
    rfl
  · cases h

/-- The members in an object have values in normal form. -/
inductive Settled : Object → Prop
  | value (v : Value) : Settled (.value v)
  | member {v : Value} (h : v.Normal) : Settled (.member v)
  | list {xs : List Object} (h : ∀ x ∈ xs, Settled x) : Settled (.list xs)
  | tuple {xs : List Object} (h : ∀ x ∈ xs, Settled x) : Settled (.tuple xs)
  | dict {es : List (Key × Object)} (h : ∀ e ∈ es, Settled e.2) : Settled (.dict es)

/-- Only members can bring anything else into a normal form. -/
theorem Settled.normal {o : Object} (h : o.Settled) : o.normalForm.Normal := by
  induction h with
  | value v => exact normal_normalForm v
  | member h => exact h
  | list _ ih =>
    rw [normalForm_items rfl]
    exact .list (List.forall_mem_map.2 ih)
  | tuple _ ih =>
    rw [normalForm_items rfl]
    exact .list (List.forall_mem_map.2 ih)
  | @dict es _ ih =>
    rw [normalForm_entries rfl]
    refine .dict (Mapping.keys (Mapping.ofPairs (formFields es))) ?_ (Mapping.nodup_ofPairs _) ?_
    · rw [Mapping.keys, List.map_map, List.map_map]
      rfl
    · refine List.forall_mem_map.2 fun e he => ?_
      obtain ⟨e', he', rfl⟩ := List.mem_map.1 (Mapping.mem_ofPairs he)
      exact ih e' he'

section Values

theorem toKey_text (v : Value) : v.toKey.text = v.text := by
  cases v <;> rfl

theorem toKey_isShowable (v : Value) : v.toKey.isShowable = v.isShowable := by
  cases v <;> rfl

mutual

/-- An object without members of its own has the normal form of the value that it is. -/
theorem normalForm_toObject : ∀ v : Value, v.toObject.normalForm = v.normalForm
  | .list xs => by
    rw [toObject, normalForm, itemForms_itemObjects xs, normalForm_list]
  | .tuple xs => by
    rw [toObject, normalForm, itemForms_itemObjects xs, normalForm_tuple]
  | .dict es => by
    rw [toObject, normalForm_entries rfl, formFields_entryObjects es, normalForm_dict]
  | .choice _ => rfl
  | .null => rfl
  | .bool _ => rfl
  | .int _ => rfl
  | .float _ => rfl
  | .str _ => rfl
  | .path _ => rfl
  | .moment _ => rfl

theorem itemForms_itemObjects : ∀ xs : List Value,
    itemForms (itemObjects xs) = xs.map Value.normalForm
  | [] => rfl
  | x :: xs => by
    rw [itemObjects, itemForms, normalForm_toObject x, itemForms_itemObjects xs, List.map_cons]

theorem formFields_entryObjects : ∀ es : List (Value × Value),
    formFields (entryObjects es) = normalFields es
  | [] => rfl
  | (k, v) :: es => by
    have hrest := formFields_entryObjects es
    rw [formFields, normalFields] at hrest
    rw [entryObjects, formFields, normalFields, List.map_cons, List.map_cons, hrest,
      toKey_text, normalForm_toObject v]

end

mutual

theorem keysShowable_toObject : ∀ v : Value, v.toObject.keysShowable = v.keysShowable
  | .list xs => itemKeysShowable_itemObjects xs
  | .tuple xs => itemKeysShowable_itemObjects xs
  | .dict es => entryKeysShowable_entryObjects es
  | .choice _ => rfl
  | .null => rfl
  | .bool _ => rfl
  | .int _ => rfl
  | .float _ => rfl
  | .str _ => rfl
  | .path _ => rfl
  | .moment _ => rfl

theorem itemKeysShowable_itemObjects : ∀ xs : List Value,
    itemKeysShowable (itemObjects xs) = Value.itemKeysShowable xs
  | [] => rfl
  | x :: xs => by
    rw [itemObjects, itemKeysShowable, Value.itemKeysShowable, keysShowable_toObject x,
      itemKeysShowable_itemObjects xs]

theorem entryKeysShowable_entryObjects : ∀ es : List (Value × Value),
    entryKeysShowable (entryObjects es) = Value.entryKeysShowable es
  | [] => rfl
  | (k, v) :: es => by
    rw [entryObjects, entryKeysShowable, Value.entryKeysShowable, toKey_isShowable,
      keysShowable_toObject v, entryKeysShowable_entryObjects es]

end

theorem normalize_toObject (v : Value) : v.toObject.normalize = v.normalize := by
  rw [normalize, keysShowable_toObject, normalForm_toObject]
  rfl

/-- As an object, a value has the text that it has as an option. -/
theorem encode_toObject (v : Value) : v.toObject.encode = v.encode := by
  rw [encode, normalize_toObject]
  rfl

end Values

/-- What a document holds in place of an object. A value in normal form is left as it is. There is
nothing only if a key has no text. If the members in the object have values in normal form, then what
is left is in normal form: it stays as it is, and its text is that of the object. Lists and tuples
become lists item by item. In a mapping every key becomes its text; the texts are in the order in
which they first come, and each has the value that its last key has. -/
theorem normalize_settles (o : Object) :
    (∀ v : Value, v.Normal → o = .value v ∨ o = v.toObject → o.normalize = .ok v) ∧
    (o.keysShowable = false →
      o.normalize = .error .unwritable ∧ o.encode = .error .unwritable) ∧
    (o.keysShowable = true → ∃ n, o.normalize = .ok n ∧
      (o.Settled → n.Normal ∧ n.normalize = .ok n ∧ n.encode = o.encode) ∧
      (∀ xs, o.items? = some xs → n = .list (xs.map normalForm)) ∧
      (∀ es, o.entries? = some es → ∃ fs : Mapping Value,
        n = .dict (fs.map fun e => (.str e.1, e.2)) ∧
        Mapping.keys fs = (es.map fun e => e.1.text).eraseDups ∧
        ∀ name, Mapping.get? name fs =
          Mapping.last? name (es.map fun e => (e.1.text, e.2.normalForm)))) := by
  refine ⟨?_, ?_, ?_⟩
  · rintro v hv (rfl | rfl)
    · exact normalize_of_normal hv
    · rw [normalize_toObject, normalize_of_normal hv]
  · intro hkeys
    have hnormalize : o.normalize = .error .unwritable := by
      rw [normalize, hkeys]
      rfl
    exact ⟨hnormalize, by rw [encode, hnormalize]⟩
  intro hkeys
  have hnormalize : o.normalize = .ok o.normalForm := by
    rw [normalize, if_pos hkeys]
  refine ⟨o.normalForm, hnormalize, ?_, fun xs => normalForm_items, ?_⟩
  · intro hsettled
    have hstays := normalize_of_normal hsettled.normal
    refine ⟨hsettled.normal, hstays, ?_⟩
    cases hdocument : o.normalForm.document <;>
      simp only [Value.encode, written, hstays, encode, hnormalize, hdocument]
  · intro es hes
    have hkeys : Mapping.keys (formFields es) = es.map fun e => e.1.text := by
      rw [Mapping.keys, formFields, List.map_map]
      rfl
    exact ⟨_, normalForm_entries hes, hkeys ▸ Mapping.keys_ofPairs _,
      fun n => Mapping.get?_ofPairs n _⟩

/-- A mapping whose keys, a member and a truth value among them, get four texts, two of them twice;
its values have tuples, a path and members in them. -/
def mixedKeys : Object :=
  .dict [(.value (.bool true), .tuple [.member (.str "jshint"), .value (.int 1)]),
    (.value (.int 2), .value .null), (.member (.str "skip"), .dict [(.value .null, .tuple [])]),
    (.value (.str "True"), .list [.value (.path ⟨0, ["k"]⟩), .member (.int 3)]),
    (.value (.str "2"), .value (.bool false))]

def mixedNormal : Value :=
  .dict [(.str "True", .list [.str "k", .int 3]), (.str "2", .bool false),
    (.str "skip", .dict [(.str "None", .list [])])]

theorem normalize_settles_mixed :
    mixedKeys.keysShowable = true ∧ mixedKeys.Settled ∧ mixedNormal.Normal ∧
    mixedKeys.normalize = .ok mixedNormal ∧ mixedNormal.normalize = .ok mixedNormal ∧
    mixedNormal.encode = mixedKeys.encode := by
  have hkeys : mixedKeys.keysShowable = true := rfl
  have hsettled : mixedKeys.Settled := by
    refine .dict ?_
    simp only [List.forall_mem_cons]
    refine ⟨.tuple ?_, .value _, .dict ?_, .list ?_, .value _, by simp⟩
    · simp only [List.forall_mem_cons]
      exact ⟨.member (.str _), .value _, by simp⟩
    · exact List.forall_mem_singleton.2 (.tuple (by simp))
    · simp only [List.forall_mem_cons]
      exact ⟨.value _, .member (.int _), by simp⟩
  obtain ⟨n, hn, hsettles, _⟩ := (normalize_settles mixedKeys).2.2 hkeys
  have hvalue : mixedKeys.normalize = .ok mixedNormal := rfl
  obtain rfl : mixedNormal = n := Except.ok.inj (hvalue.symm.trans hn)
  obtain ⟨hnormal, hstays, hencode⟩ := hsettles hsettled
  exact ⟨hkeys, hsettled, hnormal, hn, hstays, hencode⟩

/-- A key that is not written leaves no value at all, and the value of a member need not be in
normal form: what is left of a member whose value is a path is changed once more. -/
theorem not_normal_always :
    (Object.dict [(.value (.int Digits.overlong), .value .null)]).normalize =
      .error .unwritable ∧
    (Object.member (.path ⟨0, ["k"]⟩)).normalize = .ok (.path ⟨0, ["k"]⟩) ∧
    ¬ (Value.path ⟨0, ["k"]⟩).Normal ∧
    (Value.path ⟨0, ["k"]⟩).normalize = .ok (.str "k") ∧
    (Object.member (.path ⟨0, ["k"]⟩)).encode = .error (.noDocument "PosixPath") := by
  have hkeys : (Object.dict [(.value (.int Digits.overlong), .value .null)]).keysShowable =
      false := by
    have h : (Object.dict [(.value (.int Digits.overlong), .value .null)]).keysShowable =
        (Digits.isWritable Digits.overlong && true && true) := rfl
    rw [h, Digits.isWritable_overlong]
    rfl
  refine ⟨?_, rfl, nofun, rfl, rfl⟩
  rw [normalize, hkeys]
  rfl

end Object

end ScriptLint
