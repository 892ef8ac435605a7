import ScriptLint.Proofs.Digits
import ScriptLint.Proofs.Documents

/-!
# ScriptLint.Proofs.WrittenValues

Which values are written. What a document holds in place of a value is a document as it is, so the
only thing that keeps a value from being written is an integer with too many digits: in a key, or in
what is left of the value.

* `Json.isWritable`: documents without such an integer
* `document_toValue`: the document that is written for a document
* `Value.isWritable`: values that are written
* `written_eq`: the text of a value
* `isWritable_list`, `isWritable_dict`: lists and mappings that are written
* `isWritable_of_isShowable`: values without such an integer anywhere
* `Document.isWritable_toValue`: values of documents that were read
-/

namespace ScriptLint

/-- The value of a result that has one. -/
theorem eq_ok_of_toOption {ε α : Type} {r : Except ε α} {a : α} (h : r.toOption = some a) :
    r = .ok a := by
  cases r with
  | error e => cases h
  | ok b => exact congrArg Except.ok (Option.some.inj h)

namespace Json

mutual

/-- Whether all integers of a document are written. -/
def isWritable : Json → Bool
  | .int i => Digits.isWritable i
  | .arr xs => itemsWritable xs
  | .obj fs => fieldsWritable fs
  | _ => true

def itemsWritable : List Json → Bool
  | [] => true
  | x :: xs => isWritable x && itemsWritable xs

def fieldsWritable : List (String × Json) → Bool
  | [] => true
  | (_, x) :: fs => isWritable x && fieldsWritable fs

end

theorem itemsWritable_iff {xs : List Json} :
    itemsWritable xs = true ↔ ∀ x ∈ xs, x.isWritable = true := by
  induction xs with
  | nil => simp [itemsWritable]
  | cons x xs ih => simp [itemsWritable, ih]

theorem fieldsWritable_iff {fs : List (String × Json)} :
    fieldsWritable fs = true ↔ ∀ e ∈ fs, e.2.isWritable = true := by
  induction fs with
  | nil => simp [fieldsWritable]
  | cons e fs ih =>
    obtain ⟨n, x⟩ := e
    simp [fieldsWritable, ih]

mutual

/-- A document is written as it is, unless an integer in it has too many digits. -/
theorem document_toValue : ∀ j : Json,
    j.toValue.document = if j.isWritable then .ok j else .error .unwritable
  | .null => rfl
  | .bool _ => rfl
  | .int _ => rfl
  | .float _ => rfl
  | .str _ => rfl
  | .arr xs => by
    rw [toValue, Value.document, documents_itemValues xs, isWritable]
    cases itemsWritable xs <;> rfl
  | .obj fs => by
    rw [toValue, Value.document, fieldDocuments_fieldValues fs, isWritable]
    cases fieldsWritable fs <;> rfl

theorem documents_itemValues : ∀ xs : List Json,
    Value.documents (itemValues xs) = if itemsWritable xs then .ok xs else .error .unwritable
  | [] => rfl
  | x :: xs => by
    rw [itemValues, Value.documents, document_toValue x, documents_itemValues xs, itemsWritable]
    cases isWritable x <;> cases itemsWritable xs <;> rfl

theorem fieldDocuments_fieldValues : ∀ fs : List (String × Json),
    Value.fieldDocuments (fieldValues fs) =
      if fieldsWritable fs then .ok fs else .error .unwritable
  | [] => rfl
  | (n, x) :: fs => by
    rw [fieldValues, Value.fieldDocuments, document_toValue x, fieldDocuments_fieldValues fs,
      fieldsWritable]
    cases isWritable x <;> cases fieldsWritable fs <;> rfl

end

end Json

namespace Value

/-- Whether a value is written: its keys have texts, and so has what a document holds in its place. -/
def isWritable (v : Value) : Bool := v.keysShowable && v.toJson.isWritable

theorem isWritable_int (i : Int) : (Value.int i).isWritable = Digits.isWritable i := rfl

theorem written_eq (layout : Json → String) (v : Value) :
    v.written layout = if v.isWritable then .ok (layout v.toJson) else .error .unwritable := by
  rw [written, normalize, isWritable]
  cases v.keysShowable with
  | false => rfl
  | true =>
    simp only [if_true, normalForm, Json.document_toValue, Bool.true_and]
    cases v.toJson.isWritable <;> rfl

theorem encode_eq (v : Value) :
    v.encode = if v.isWritable then .ok v.toJson.encode else .error .unwritable :=
  written_eq Json.encode v

theorem encode_eq_ok_iff {v : Value} {text : String} :
    v.encode = .ok text ↔ v.isWritable = true ∧ v.toJson.encode = text := by
  rw [encode_eq]
  cases v.isWritable <;> simp

theorem itemKeysShowable_iff {xs : List Value} :
    itemKeysShowable xs = true ↔ ∀ x ∈ xs, x.keysShowable = true := by
  induction xs with
  | nil => simp [itemKeysShowable]
  | cons x xs ih => simp [itemKeysShowable, ih]

theorem entryKeysShowable_iff {es : List (Value × Value)} :
    entryKeysShowable es = true ↔
      ∀ e ∈ es, e.1.isShowable = true ∧ e.2.keysShowable = true := by
  induction es with
  | nil => simp [entryKeysShowable]
  | cons e es ih =>
    obtain ⟨k, v⟩ := e
    simp [entryKeysShowable, ih]

/-- A list is written if its items are. -/
theorem isWritable_list {xs : List Value} :
    (Value.list xs).isWritable = true ↔ ∀ x ∈ xs, x.isWritable = true := by
  rw [isWritable, keysShowable, toJson, itemsJson_eq_map, Json.isWritable, Bool.and_eq_true,
    itemKeysShowable_iff, Json.itemsWritable_iff, List.forall_mem_map]
  simp only [isWritable, Bool.and_eq_true]
  exact ⟨fun h x hx => ⟨h.1 x hx, h.2 x hx⟩,
    fun h => ⟨fun x hx => (h x hx).1, fun x hx => (h x hx).2⟩⟩

/-- A mapping whose keys keep apart is written if its keys have texts and its values are written. -/
theorem isWritable_dict {es : List (Value × Value)} (h : (es.map fun e => e.1.text).Nodup) :
    (Value.dict es).isWritable = true ↔
      ∀ e ∈ es, e.1.isShowable = true ∧ e.2.isWritable = true := by
  rw [isWritable, keysShowable, toJson_dict h, Json.isWritable, Bool.and_eq_true,
    entryKeysShowable_iff, Json.fieldsWritable_iff, entryFields, List.forall_mem_map]
  simp only [isWritable, Bool.and_eq_true]
  exact ⟨fun h e he => ⟨(h.1 e he).1, (h.1 e he).2, h.2 e he⟩,
    fun h => ⟨fun e he => ⟨(h e he).1, (h e he).2.1⟩, fun e he => (h e he).2.2⟩⟩

theorem itemsShowable_iff {xs : List Value} :
    itemsShowable xs = true ↔ ∀ x ∈ xs, x.isShowable = true := by
  induction xs with
  | nil => simp [itemsShowable]
  | cons x xs ih => simp [itemsShowable, ih]

theorem entriesShowable_iff {es : List (Value × Value)} :
    entriesShowable es = true ↔ ∀ e ∈ es, e.1.isShowable = true ∧ e.2.isShowable = true := by
  induction es with
  | nil => simp [entriesShowable]
  | cons e es ih =>
    obtain ⟨k, v⟩ := e
    simp [entriesShowable, ih]

mutual

theorem keysShowable_of_isShowable : ∀ v : Value, v.isShowable = true → v.keysShowable = true
  | .list xs, h => itemKeysShowable_of_itemsShowable xs h
  | .tuple xs, h => itemKeysShowable_of_itemsShowable xs h
  | .dict es, h => entryKeysShowable_of_entriesShowable es h
  | .null, _ => rfl
  | .bool _, _ => rfl
  | .int _, _ => rfl
  | .float _, _ => rfl
  | .str _, _ => rfl
  | .choice _, _ => rfl
  | .path _, _ => rfl
  | .moment _, _ => rfl

theorem itemKeysShowable_of_itemsShowable : ∀ xs : List Value,
    itemsShowable xs = true → itemKeysShowable xs = true
  | [], _ => rfl
  | x :: xs, h => by
    rw [itemsShowable, Bool.and_eq_true] at h
    rw [itemKeysShowable, keysShowable_of_isShowable x h.1,
      itemKeysShowable_of_itemsShowable xs h.2]
    rfl

theorem entryKeysShowable_of_entriesShowable : ∀ es : List (Value × Value),
    entriesShowable es = true → entryKeysShowable es = true
  | [], _ => rfl
  | (k, v) :: es, h => by
    rw [entriesShowable, Bool.and_eq_true, Bool.and_eq_true] at h
    rw [entryKeysShowable, h.1.1, keysShowable_of_isShowable v h.1.2,
      entryKeysShowable_of_entriesShowable es h.2]
    rfl

end

mutual

theorem isWritable_toJson : ∀ v : Value, v.isShowable = true → v.toJson.isWritable = true
  | .int _, h => h
  | .list xs, h => by
    rw [toJson, itemsJson_eq_map, Json.isWritable, Json.itemsWritable_iff, List.forall_mem_map]
    exact items_isWritable xs h
  | .tuple xs, h => by
    rw [toJson, itemsJson_eq_map, Json.isWritable, Json.itemsWritable_iff, List.forall_mem_map]
    exact items_isWritable xs h
  | .dict es, h => by
    rw [toJson_dict_ofPairs, Json.isWritable, Json.fieldsWritable_iff]
    intro e he
    obtain ⟨e', he', rfl⟩ := List.mem_map.1 (Mapping.mem_ofPairs he)
    exact entries_isWritable es h e' he'
  | .null, _ => rfl
  | .bool _, _ => rfl
  | .float _, _ => rfl
  | .str _, _ => rfl
  | .choice _, _ => rfl
  | .path _, _ => rfl
  | .moment _, _ => rfl

theorem items_isWritable : ∀ xs : List Value, itemsShowable xs = true →
    ∀ x ∈ xs, x.toJson.isWritable = true
  | [], _ => by simp
  | x :: xs, h => by
    rw [itemsShowable, Bool.and_eq_true] at h
    exact List.forall_mem_cons.2 ⟨isWritable_toJson x h.1, items_isWritable xs h.2⟩

theorem entries_isWritable : ∀ es : List (Value × Value), entriesShowable es = true →
    ∀ e ∈ es, e.2.toJson.isWritable = true
  | [], _ => by simp
  | (k, v) :: es, h => by
    rw [entriesShowable, Bool.and_eq_true, Bool.and_eq_true] at h
    exact List.forall_mem_cons.2 ⟨isWritable_toJson v h.1.2, entries_isWritable es h.2⟩

end

/-- A value is written if no integer in it has too many digits. -/
theorem isWritable_of_isShowable {v : Value} (h : v.isShowable = true) : v.isWritable = true := by
  rw [isWritable, keysShowable_of_isShowable v h, isWritable_toJson v h]
  rfl

end Value

namespace Json

mutual

/-- The names in a document are texts, so the keys of its value have texts. -/
theorem keysShowable_toValue : ∀ j : Json, j.toValue.keysShowable = true
  | .null => rfl
  | .bool _ => rfl
  | .int _ => rfl
  | .float _ => rfl
  | .str _ => rfl
  | .arr xs => itemKeysShowable_itemValues xs
  | .obj fs => entryKeysShowable_fieldValues fs

theorem itemKeysShowable_itemValues : ∀ xs : List Json,
    Value.itemKeysShowable (itemValues xs) = true
  | [] => rfl
  | x :: xs => by
    rw [itemValues, Value.itemKeysShowable, keysShowable_toValue x,
      itemKeysShowable_itemValues xs]
    rfl

theorem entryKeysShowable_fieldValues : ∀ fs : List (String × Json),
    Value.entryKeysShowable (fieldValues fs) = true
  | [] => rfl
  | (n, x) :: fs => by
    rw [fieldValues, Value.entryKeysShowable, keysShowable_toValue x,
      entryKeysShowable_fieldValues fs]
    rfl

end

/-- The library reads no more digits than it writes. -/
theorem isWritable_wholeNumber {ds : List Char} (negative : Bool) (hds : Whole ds)
    (hlimit : Dialect.host.refusesDigits ds.length = false) :
    (wholeNumber negative ds).isWritable = true := by
  have hdigits : ∀ c ∈ ds, c.isDigit = true := by
    rcases hds with rfl | ⟨_, _, _, _, hdigits⟩
    · exact List.forall_mem_singleton.2 rfl
    · exact hdigits
  have hlength : ds.length ≤ Digits.limit := by
    simpa [Dialect.refusesDigits, Dialect.host] using hlimit
  exact Digits.isWritable_value hdigits hlength negative

mutual

/-- A document that the library reads is written. -/
theorem Spelled.isWritable : ∀ {cs : List Char} {j : Json}, Spelled .host cs j →
    j.isWritable = true
  | _, _, .null => rfl
  | _, _, .true => rfl
  | _, _, .false => rfl
  | _, _, .nan _ => rfl
  | _, _, .infinite _ _ => rfl
  | _, _, .whole negative hds hlimit => isWritable_wholeNumber negative hds hlimit
  | _, _, .number _ _ _ _ _ => rfl
  | _, _, .str _ => rfl
  | _, _, .arr_empty _ => rfl
  | _, _, .arr _ hitems => itemsWritable_iff.2 hitems.isWritable
  | _, _, .obj_empty _ => rfl
  | _, _, .obj _ hfields =>
    fieldsWritable_iff.2 fun e he => hfields.isWritable e (Mapping.mem_ofPairs he)

theorem SpelledItems.isWritable : ∀ {cs : List Char} {js : List Json},
    SpelledItems .host cs js → ∀ j ∈ js, j.isWritable = true
  | _, _, .one hx _ => List.forall_mem_singleton.2 hx.isWritable
  | _, _, .more hx _ _ hys => List.forall_mem_cons.2 ⟨hx.isWritable, hys.isWritable⟩

theorem SpelledFields.isWritable : ∀ {cs : List Char} {fs : List (String × Json)},
    SpelledFields .host cs fs → ∀ e ∈ fs, e.2.isWritable = true
  | _, _, .last _ _ _ hx _ => List.forall_mem_singleton.2 hx.isWritable
  | _, _, .next _ _ _ hx _ _ hys => List.forall_mem_cons.2 ⟨hx.isWritable, hys.isWritable⟩

end

/-- So is the value that it stands for. -/
theorem Document.isWritable_toValue {cs : List Char} {j : Json} (h : Document .host cs j) :
    j.toValue.isWritable = true := by
  obtain ⟨_, _, _, _, _, _, hspelled⟩ := h
  rw [Value.isWritable, keysShowable_toValue, hspelled.toJson_toValue, hspelled.isWritable]
  rfl

end Json

end ScriptLint
