import ScriptLint.Proofs.Grammar
import ScriptLint.Proofs.Writing

/-!
# ScriptLint.Proofs.Documents

Values and their documents. A value without binary numbers is read back as the document that was
written for it, and a document that was read is the document of its value.

* `Value.entryFields`: the fields of a mapping
* `Value.Exact`: values whose numbers a dialect takes as they are
* `Value.reread_exact`: their documents, written and read
* `Spelled.toJson_toValue`: documents that were read
-/

namespace ScriptLint

open Json Digits

namespace Value

section Mappings

/-- The fields of a mapping whose names do not get in each other's way. -/
def entryFields (es : List (Value × Value)) : Mapping Json :=
  es.map fun e => (e.1.text, e.2.toJson)

theorem entriesJson_eq (es : List (Value × Value)) : ∀ done : Mapping Json,
    entriesJson done es = Mapping.layer done (entryFields es) := by
  induction es with
  | nil =>
    intro done
    rw [entriesJson]
    rfl
  | cons e es ih =>
    intro done
    rw [entriesJson, ih]
    rfl

theorem keys_entryFields (es : List (Value × Value)) :
    Mapping.keys (entryFields es) = es.map fun e => e.1.text := by
  rw [Mapping.keys, entryFields, List.map_map]
  rfl

theorem toJson_dict_ofPairs (es : List (Value × Value)) :
    (Value.dict es).toJson = .obj (Mapping.ofPairs (entryFields es)) := by
  rw [toJson, entriesJson_eq]
  rfl

theorem toJson_dict {es : List (Value × Value)} (h : (es.map fun e => e.1.text).Nodup) :
    (Value.dict es).toJson = .obj (entryFields es) := by
  rw [toJson_dict_ofPairs]
  exact congrArg Json.obj (Mapping.ofPairs_nodup (keys_entryFields es ▸ h))

theorem itemsJson_eq_map (xs : List Value) : itemsJson xs = xs.map toJson := by
  induction xs with
  | nil => rfl
  | cons x xs ih => rw [itemsJson, ih, List.map_cons]

end Mappings

section Exact

/-- No binary number is in a value, and no integer that `d` refuses. Keys may be any values. -/
inductive Exact (d : Dialect) : Value → Prop
  | null : Exact d .null
  | bool (b : Bool) : Exact d (.bool b)
  | int {i : Int} (h : d.refusesDigits (decimal i.natAbs).length = false) : Exact d (.int i)
  | str (s : String) : Exact d (.str s)
  | list {xs : List Value} (h : ∀ x ∈ xs, Exact d x) : Exact d (.list xs)
  | tuple {xs : List Value} (h : ∀ x ∈ xs, Exact d x) : Exact d (.tuple xs)
  | dict {es : List (Value × Value)} (h : ∀ e ∈ es, Exact d e.2) : Exact d (.dict es)
  | choice (c : Choice) : Exact d (.choice c)
  | path (p : Path) : Exact d (.path p)
  | moment (m : Moment) : Exact d (.moment m)

variable {d : Dialect}

theorem reread_items {xs : List Value} (h : ∀ x ∈ xs, reread d x.toJson = .ok x.toJson) :
    reread d (.arr (itemsJson xs)) = .ok (.arr (itemsJson xs)) := by
  rw [itemsJson_eq_map]
  exact reread_arr (List.forall_mem_map.2 h)

/-- The document of an exact value is read as it was written. -/
theorem reread_exact {v : Value} (h : v.Exact d) : reread d v.toJson = .ok v.toJson := by
  induction h with
  | null => simp only [toJson, reread]
  | bool b => simp only [toJson, reread]
  | int h => simp only [toJson, reread, h, Bool.false_eq_true, if_false]
  | str s => simp only [toJson, reread]
  | list _ ih => exact reread_items ih
  | tuple _ ih => exact reread_items ih
  | @dict es _ ih =>
    rw [toJson_dict_ofPairs]
    refine reread_obj (Mapping.nodup_ofPairs _) ?_
    intro e he
    obtain ⟨e', he', rfl⟩ := List.mem_map.1 (Mapping.mem_ofPairs he)
    exact ih e' he'
  | choice c => simp only [toJson, reread]
  | path p => simp only [toJson, reread]
  | moment m => simp only [toJson, reread]

theorem readAs_encode {v : Value} (h : v.Exact d) : readAs d v.toJson.encode = .ok v.toJson := by
  rw [Json.encode, readAs_write, reread_exact h]

end Exact

end Value

namespace Json

variable {d : Dialect}

theorem entryFields_fieldValues {fs : List (String × Json)}
    (h : ∀ e ∈ fs, e.2.toValue.toJson = e.2) : Value.entryFields (fieldValues fs) = fs := by
  induction fs with
  | nil => rfl
  | cons e fs ih =>
    obtain ⟨n, j⟩ := e
    have hj : j.toValue.toJson = j := h (n, j) List.mem_cons_self
    have hfs := ih fun e he => h e (List.mem_cons_of_mem _ he)
    rw [Value.entryFields] at hfs
    rw [fieldValues, Value.entryFields, List.map_cons, hfs, hj]
    rfl

/-- A mapping with distinct names is the document of its value, if its fields are. -/
theorem toJson_toValue_obj {fs : Mapping Json} (hnames : (Mapping.keys fs).Nodup)
    (h : ∀ e ∈ fs, e.2.toValue.toJson = e.2) : (Json.obj fs).toValue.toJson = .obj fs := by
  rw [toValue, Value.toJson_dict_ofPairs, entryFields_fieldValues h, Mapping.ofPairs_nodup hnames]

mutual

/-- A document that a text spells is the document of its value. -/
theorem Spelled.toJson_toValue : ∀ {cs : List Char} {j : Json}, Spelled d cs j →
    j.toValue.toJson = j
  | _, _, .null => rfl
  | _, _, .true => rfl
  | _, _, .false => rfl
  | _, _, .nan _ => rfl
  | _, _, .infinite _ _ => rfl
  | _, _, .whole _ _ _ => rfl
  | _, _, .number _ _ _ _ _ => rfl
  | _, _, .str _ => rfl
  | _, _, .arr_empty _ => rfl
  | _, _, .arr _ hitems => by
    rw [toValue, Value.toJson, hitems.itemsJson_itemValues]
  | _, _, .obj_empty _ => rfl
  | _, _, .obj _ hfields =>
    toJson_toValue_obj (Mapping.nodup_ofPairs _) fun e he =>
      hfields.toJson_toValue e (Mapping.mem_ofPairs he)

theorem SpelledItems.itemsJson_itemValues : ∀ {cs : List Char} {js : List Json},
    SpelledItems d cs js → Value.itemsJson (itemValues js) = js
  | _, _, .one hx _ => by
    rw [itemValues, Value.itemsJson, hx.toJson_toValue]
    rfl
  | _, _, .more hx _ _ hys => by
    rw [itemValues, Value.itemsJson, hx.toJson_toValue, hys.itemsJson_itemValues]

theorem SpelledFields.toJson_toValue : ∀ {cs : List Char} {fs : List (String × Json)},
    SpelledFields d cs fs → ∀ e ∈ fs, e.2.toValue.toJson = e.2
  | _, _, .last _ _ _ hx _ => List.forall_mem_singleton.2 hx.toJson_toValue
  | _, _, .next _ _ _ hx _ _ hys => List.forall_mem_cons.2 ⟨hx.toJson_toValue, hys.toJson_toValue⟩

end

theorem Document.toJson_toValue {cs : List Char} {j : Json} (h : Document d cs j) :
    j.toValue.toJson = j := by
  obtain ⟨_, _, _, _, _, _, hspelled⟩ := h
  exact hspelled.toJson_toValue

end Json

end ScriptLint
